import SmallScheme.Proofs.Token.Piece

/-!
# The lexical grammar

A source is laid out as gaps and pieces that take turns (`Laid`). Since the lexer finds exactly
the gap and the piece that a source begins with, a source has one layout and no other, nothing
of it is lost or read twice, and the tokens are the lexemes of its pieces, the end of input
last.

## Main results

* `exists_laid`: every source has a layout.
* `Laid.unique`: a source has no more than one layout.
* `Laid.tokenize_eq`: the tokens of a source are those of its parts, each at its place.
* `Laid.map_lexeme_tokenize`: the tokens of a source are the lexemes of its pieces.
* `tokenize_layout`: a source has one layout, and its tokens are the lexemes of its pieces.
-/

namespace SmallScheme

/-! ### Layouts -/

/-- A gap, the piece behind it, and the lexeme that the piece spells. -/
structure Part where
  gap : List Char
  piece : List Char
  lexeme : Lexeme

/-- The characters of a part as they stand in the source. -/
def Part.chars (part : Part) : List Char :=
  part.gap ++ part.piece

/-- A source laid out as parts, and the gap behind the last of them. -/
inductive Laid : (source : List Char) → (parts : List Part) → (last : List Char) → Prop
  | last {gap : List Char} : IsGap gap [] → Laid gap [] gap
  | part {gap piece rest last : List Char} {lexeme : Lexeme} {parts : List Part} :
      IsGap gap (piece ++ rest) → IsPiece piece rest lexeme → Laid rest parts last →
      Laid (gap ++ (piece ++ rest)) (⟨gap, piece, lexeme⟩ :: parts) last

/-- The parts of a source and the gap behind them are, side by side, the whole source. -/
theorem Laid.chars_eq {cs last : List Char} {parts : List Part} (h : Laid cs parts last) :
    cs = parts.flatMap Part.chars ++ last := by
  induction h with
  | last _ => rfl
  | part _ _ _ ih =>
      rw [List.flatMap_cons, Part.chars, List.append_assoc, ← ih, List.append_assoc]

/-- **Every source is `Laid` out as parts and a last gap**: those that the lexer finds. -/
theorem exists_laid (cs : List Char) : ∃ parts last, Laid cs parts last := by
  have gapSplit := gap_append_afterGap false cs
  obtain ⟨isGap, solid⟩ := (isGap_gap cs).1
  by_cases done : afterGap false cs = []
  · rw [done] at isGap gapSplit
    rw [List.append_nil] at gapSplit
    exact ⟨[], cs, .last (by rwa [gapSplit] at isGap)⟩
  · have pieceSplit := piece_append_afterPiece (afterGap false cs)
    -- the gap may be empty, but the piece is not, so what is left is shorter
    have shorter : (afterPiece (afterGap false cs)).length < cs.length := by
      have pieceLength := congrArg List.length pieceSplit
      have gapLength := congrArg List.length gapSplit
      have nonempty := List.length_pos_iff.2 (mt piece_eq_nil_iff.1 done)
      rw [List.length_append] at pieceLength gapLength
      omega
    obtain ⟨parts, last, laid⟩ := exists_laid (afterPiece (afterGap false cs))
    have whole := Laid.part (pieceSplit.symm ▸ isGap) (isPiece_piece solid done) laid
    rw [pieceSplit, gapSplit] at whole
    exact ⟨_, last, whole⟩
termination_by cs.length

/-- The first part of a layout is the gap and the piece that the lexer finds, and the other parts
are a layout of what the lexer leaves. Without any part, the source is all gap. -/
theorem Laid.front {cs last : List Char} {parts : List Part} (h : Laid cs parts last) :
    (parts = [] ∧ last = cs ∧ afterGap false cs = []) ∨
      ∃ others, parts = ⟨gap false cs, piece (afterGap false cs),
          .ofPiece (piece (afterGap false cs))⟩ :: others ∧
        afterGap false cs ≠ [] ∧ Laid (afterPiece (afterGap false cs)) others last := by
  cases h with
  | last isGap =>
      have found := isGap.gap_append (by simp [IsSolid])
      rw [List.append_nil] at found
      exact .inl ⟨rfl, rfl, found.2⟩
  | @part g p rest last l others isGap isPiece laid =>
      obtain ⟨solid, nonempty⟩ := isPiece.isSolid
      obtain ⟨gapFound, gapAfter⟩ := isGap.gap_append solid
      obtain ⟨pieceFound, pieceAfter, spelled⟩ := isPiece.piece_append
      rw [gapFound, gapAfter, pieceFound, pieceAfter, spelled]
      exact .inr ⟨others, rfl, nonempty, laid⟩

/-- **A source is `Laid` out in one way at most.** -/
theorem Laid.unique {cs last last' : List Char} {parts parts' : List Part}
    (h : Laid cs parts last) (h' : Laid cs parts' last') : parts' = parts ∧ last' = last := by
  induction parts generalizing cs parts' with
  | nil =>
      rcases h.front with ⟨-, same, done⟩ | ⟨_, nonempty, -⟩
      · rcases h'.front with ⟨none, same', -⟩ | ⟨_, -, more, -⟩
        · exact ⟨none, same'.trans same.symm⟩
        · exact absurd done more
      · cases nonempty
  | cons part parts ih =>
      rcases h.front with ⟨nonempty, -⟩ | ⟨others, whole, more, laid⟩
      · cases nonempty
      · rcases h'.front with ⟨-, -, done⟩ | ⟨others', whole', -, laid'⟩
        · exact absurd done more
        · obtain ⟨first, rfl⟩ := List.cons.inj whole
          obtain ⟨sameOthers, sameLast⟩ := ih laid laid'
          rw [whole', sameOthers, first]
          exact ⟨rfl, sameLast⟩

/-! ### The tokens of a layout -/

/-- The tokens of parts that stand one behind the other from a place on: each has its place
behind the gap. -/
def Part.tokens : Place → List Part → List Token
  | _, [] => []
  | place, part :: parts =>
    ⟨part.lexeme, place.after part.gap⟩ :: tokens (place.after part.chars) parts

/-- `Part.tokens` of some parts have the lexemes of the parts. -/
theorem Part.map_lexeme_tokens (place : Place) (parts : List Part) :
    (Part.tokens place parts).map Token.lexeme = parts.map Part.lexeme := by
  induction parts generalizing place with
  | nil => rfl
  | cons part parts ih => rw [Part.tokens, List.map_cons, List.map_cons, ih]

/-- `Part.tokens` of two groups of parts are those of the first and then those of the second from
the place behind the text of the first. -/
theorem Part.tokens_append (place : Place) (parts others : List Part) :
    Part.tokens place (parts ++ others) =
      Part.tokens place parts ++ Part.tokens (place.after (parts.flatMap Part.chars)) others := by
  induction parts generalizing place with
  | nil => rfl
  | cons part parts ih =>
      rw [List.cons_append, Part.tokens, Part.tokens, ih, List.flatMap_cons, Place.after_append,
        List.cons_append]

/-- `Cursor.next` keeps the place that the cursor will come to at the end of the source. -/
theorem Cursor.place_after_next (c : Cursor) :
    c.next.2.place.after c.next.2.rest = c.place.after c.rest := by
  have gapSplit := gap_append_afterGap false c.rest
  have pieceSplit := piece_append_afterPiece (afterGap false c.rest)
  calc c.next.2.place.after c.next.2.rest
      = ((c.place.after (gap false c.rest)).after (piece (afterGap false c.rest))).after
          (afterPiece (afterGap false c.rest)) := rfl
    _ = c.place.after c.rest := by
        rw [← Place.after_append, ← Place.after_append, pieceSplit, gapSplit]

/-- **A lexer holds the `Part.tokens` of the rest of its source**, and then the end of input at the
place behind that rest. -/
theorem Laid.tokens_eq {c : Cursor} {parts : List Part} {last : List Char}
    (h : Laid c.rest parts last) :
    TokenSource.tokens (⟨c, false⟩ : Lexer) =
      Part.tokens c.place parts ++ [.endAt (c.place.after c.rest)] := by
  have token : c.next.1 =
      ⟨.ofPiece (piece (afterGap false c.rest)), c.place.after (gap false c.rest)⟩ := rfl
  rw [Lexer.tokens_unfinished]
  induction parts generalizing c with
  | nil =>
      rcases h.front with ⟨-, -, done⟩ | ⟨_, nonempty, -⟩
      · have whole := gap_append_afterGap false c.rest
        rw [done, List.append_nil] at whole
        have ends : c.next.1 = .endAt (c.place.after c.rest) := by
          rw [token, done, whole]
          rfl
        have isEnd : c.next.1.kind = .endOfInput := by
          rw [ends]
          rfl
        rw [decide_eq_true isEnd, Lexer.tokens_finished, ends]
        rfl
      · cases nonempty
  | cons part parts ih =>
      rcases h.front with ⟨nonempty, -⟩ | ⟨others, whole, more, laid⟩
      · cases nonempty
      · obtain ⟨first, rfl⟩ := List.cons.inj whole
        have going : c.next.1.kind ≠ .endOfInput := by
          intro ends
          have pieceEnds : Lexeme.ofPiece (piece (afterGap false c.rest)) = .endOfInput :=
            Lexeme.kind_eq_endOfInput_iff.1 ends
          exact more (piece_eq_nil_iff.1 (Lexeme.ofPiece_eq_endOfInput_iff.1 pieceEnds))
        have behind : c.next.2.place = c.place.after part.chars := by
          rw [first, Part.chars, Place.after_append]
          rfl
        have further := ih (c := c.next.2) laid rfl
        rw [decide_eq_false going, Lexer.tokens_unfinished, further, c.place_after_next, behind,
          Part.tokens, token, first]
        rfl

/-- `tokenize` finds the `Part.tokens` of a source, and then the end of input at the place behind
it. -/
theorem Laid.tokenize_eq {source : String} {parts : List Part} {last : List Char}
    (h : Laid source.toList parts last) :
    tokenize source =
      Part.tokens .start parts ++ [.endAt (Place.start.after source.toList)] :=
  Laid.tokens_eq (c := .ofString source) h

/-- **`tokenize` finds the lexemes of the parts of a source**, and then the end of input. -/
theorem Laid.map_lexeme_tokenize {source : String} {parts : List Part} {last : List Char}
    (h : Laid source.toList parts last) :
    (tokenize source).map Token.lexeme = parts.map Part.lexeme ++ [.endOfInput] := by
  rw [h.tokenize_eq, List.map_append, Part.map_lexeme_tokens]
  rfl

/-! ### Spelling -/

/-- Whether the pieces of a source spell these lexemes. -/
def Spells (source : List Char) (lexemes : List Lexeme) : Prop :=
  ∃ parts last, Laid source parts last ∧ parts.map Part.lexeme = lexemes

/-- The empty source spells no lexemes. -/
theorem spells_nil : Spells [] [] :=
  ⟨[], [], .last .nil, rfl⟩

/-- A blank in front of a source does not change what the source spells. -/
theorem Spells.blank {c : Char} {cs : List Char} {ls : List Lexeme} (h : Spells cs ls)
    (isBlank : Text.isBlank c = true) : Spells (c :: cs) ls := by
  obtain ⟨parts, last, laid, rfl⟩ := h
  cases laid with
  | last isGap => exact ⟨[], c :: cs, .last (.blank isBlank isGap), rfl⟩
  | @part gap piece rest _ lexeme parts isGap isPiece laid =>
      exact ⟨⟨c :: gap, piece, lexeme⟩ :: parts, last, .part (.blank isBlank isGap) isPiece laid,
        rfl⟩

/-- A piece in front of a source puts its lexeme in front of what the source spells. -/
theorem IsPiece.spells {p rest : List Char} {l : Lexeme} {ls : List Lexeme}
    (isPiece : IsPiece p rest l) (h : Spells rest ls) : Spells (p ++ rest) (l :: ls) := by
  obtain ⟨parts, last, laid, rfl⟩ := h
  exact ⟨⟨[], p, l⟩ :: parts, last, .part .nil isPiece laid, rfl⟩

/-- `tokenize` finds the lexemes that a source spells, and then the end of input. -/
theorem Spells.map_lexeme_tokenize {source : String} {ls : List Lexeme}
    (h : Spells source.toList ls) : (tokenize source).map Token.lexeme = ls ++ [.endOfInput] := by
  obtain ⟨parts, last, laid, rfl⟩ := h
  exact laid.map_lexeme_tokenize

/-! ### The grammar as a whole -/

/-- **The lexical grammar is exact and loses nothing.** Every source is `Laid` out as gaps and
pieces, taking turns, in one way only, and `tokenize` finds the lexemes that these pieces spell,
with the end of input behind them. -/
theorem tokenize_layout (source : String) :
    ∃ parts last, Laid source.toList parts last ∧
      source.toList = parts.flatMap (fun part => part.gap ++ part.piece) ++ last ∧
      (tokenize source).map Token.lexeme = parts.map Part.lexeme ++ [.endOfInput] ∧
      ∀ parts' last', Laid source.toList parts' last' → parts' = parts ∧ last' = last := by
  obtain ⟨parts, last, laid⟩ := exists_laid source.toList
  refine ⟨parts, last, laid, laid.chars_eq, laid.map_lexeme_tokenize, ?_⟩
  intro parts' last' laid'
  exact laid.unique laid'

end SmallScheme
