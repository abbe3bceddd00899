import Mathlib.Data.List.DropRight
import SmallScheme.Proofs.Token.Layout

/-!
# Where tokens stand

A place comes before another one if it is on an earlier line, or further left on the same line.
Every character moves on to a later place, and every token but the end of input has characters,
so the tokens that a lexer hands out stand at places that increase.

A lexer keeps three numbers beside the text that is still to be read: how many bytes are behind
it, and a line and a column. They say what can be counted in the text that has been read
(`Cursor.StandsBehind`), whichever way the lexer reads its tokens, so its offset always lies
between two characters of the source. A token has the place that is counted in the text before
its first character.

## Main results

* `Place.eq_nil_or_before_after`: a text that has characters ends behind the place where it begins.
* `Lexer.pairwise_tokens`: the tokens of a lexer stand one behind the other.
* `Place.after_start`: the place after a text is the one that is counted in it.
* `Cursor.StandsBehind.next`: what is read with one token more, and where the token stands.
* `Lexer.Reached.exists_standsBehind`: where a lexer stands after any number of steps.
* `Lexer.places_of_reached`: where a lexer stands, and where the tokens of a source do.
-/

namespace SmallScheme

/-! ### The order of places -/

namespace Place

/-- Whether a place comes before another one in a source. -/
def Before (p q : Place) : Prop :=
  p.line < q.line ∨ p.line = q.line ∧ p.column < q.column

variable {p q r : Place}

/-- The order `Place.Before` is transitive. -/
theorem Before.trans (h : p.Before q) (h' : q.Before r) : p.Before r := by
  unfold Before at *
  omega

/-- A place that comes before another one comes before everything that stands there or behind it. -/
theorem Before.trans_or (h : p.Before q) (h' : r = q ∨ q.Before r) : p.Before r := by
  rcases h' with rfl | later
  · exact h
  · exact h.trans later

/-- No place comes before itself. -/
theorem not_before_self (p : Place) : ¬ p.Before p := by
  unfold Before
  omega

/-- Every character moves the place forward. -/
theorem before_step (p : Place) (c : Char) : p.Before (p.step c) := by
  unfold Before step
  split
  · exact Or.inl (Nat.lt_succ_self p.line)
  · exact Or.inr ⟨rfl, Nat.lt_succ_self p.column⟩

/-- **Every text with a character in it moves the place forward.** -/
theorem eq_nil_or_before_after (p : Place) (text : List Char) :
    text = [] ∨ p.Before (p.after text) := by
  induction text generalizing p with
  | nil => exact Or.inl rfl
  | cons c text ih =>
      rw [after_cons]
      rcases ih (p.step c) with rfl | later
      · exact Or.inr (before_step p c)
      · exact Or.inr ((before_step p c).trans later)

end Place

namespace Cursor

/-- The token that `Cursor.next` reads stands at the cursor or behind it. -/
theorem place_next (c : Cursor) :
    c.next.1.place = c.place ∨ c.place.Before c.next.1.place := by
  change c.place.after (gap false c.rest) = c.place ∨ _
  rcases c.place.eq_nil_or_before_after (gap false c.rest) with none | later
  · exact Or.inl (by rw [none]; rfl)
  · exact Or.inr later

/-- `Cursor.next` leaves the cursor behind the place of its token, unless the token is the end of
input. -/
theorem before_next {c : Cursor} (inner : c.next.1.lexeme ≠ .endOfInput) :
    c.next.1.place.Before c.next.2.place := by
  rcases c.skipGap.place.eq_nil_or_before_after (piece c.skipGap.rest) with none | later
  · exact absurd (Lexeme.ofPiece_eq_endOfInput_iff.2 none) inner
  · exact later

end Cursor

namespace Lexer

/-- The tokens that a lexer holds stand at its cursor or behind it, one behind the other. -/
theorem places_tokens (c : Cursor) :
    (∀ token ∈ TokenSource.tokens (⟨c, false⟩ : Lexer),
        token.place = c.place ∨ c.place.Before token.place) ∧
      (TokenSource.tokens (⟨c, false⟩ : Lexer)).Pairwise fun s t => s.place.Before t.place := by
  rw [tokens_unfinished, List.forall_mem_cons, List.pairwise_cons]
  by_cases isEnd : c.next.1.kind = .endOfInput
  · rw [decide_eq_true isEnd, tokens_finished]
    exact ⟨⟨c.place_next, by simp⟩, by simp, .nil⟩
  · have inner : c.next.1.lexeme ≠ .endOfInput := mt Lexeme.kind_eq_endOfInput_iff.2 isEnd
    have shorter := Cursor.length_next_lt inner
    obtain ⟨behind, ordered⟩ := places_tokens c.next.2
    have later : ∀ token ∈ TokenSource.tokens (⟨c.next.2, false⟩ : Lexer),
        c.next.1.place.Before token.place :=
      fun token member => (Cursor.before_next inner).trans_or (behind token member)
    rw [decide_eq_false isEnd]
    refine ⟨⟨c.place_next, fun token member => ?_⟩, later, ordered⟩
    rcases c.place_next with same | before
    · exact Or.inr (same ▸ later token member)
    · exact Or.inr (before.trans (later token member))
termination_by c.rest.length

/-- **The tokens that a lexer holds stand one behind the other**, in whatever state the lexer is. -/
theorem pairwise_tokens (l : Lexer) :
    (TokenSource.tokens l).Pairwise fun s t => s.place.Before t.place := by
  obtain ⟨c, finished⟩ := l
  cases finished with
  | true =>
      rw [tokens_finished]
      exact .nil
  | false => exact (places_tokens c).2

/-- The tokens that a lexer holds are distinct. -/
theorem nodup_tokens (l : Lexer) : (TokenSource.tokens l).Nodup := by
  refine l.pairwise_tokens.imp ?_
  rintro s t before rfl
  exact Place.not_before_self _ before

end Lexer

/-! ### Counting -/

/-- The place behind a text at the front of a source, counted: a line for each line feed in the
text, and a column for each character behind the last of them. -/
def Place.behind (text : List Char) : Place :=
  ⟨1 + text.count '\n', 1 + (text.rtakeWhile (· ≠ '\n')).length⟩

/-- **Going through a text with `Place.after` comes to the place that `Place.behind` counts in
it.** -/
theorem Place.after_start (text : List Char) : start.after text = behind text := by
  induction text using List.reverseRecOn with
  | nil => rfl
  | append_singleton text c ih =>
      rw [after_append, ih, after_cons, after_nil, step, behind, behind, List.count_append,
        List.rtakeWhile_concat]
      split
      · next lineFeed => simp [lineFeed, Nat.add_assoc]
      · next other => simp [other, Nat.add_assoc]

/-! ### Cursors -/

namespace Cursor

/-- Whether a cursor stands behind a text that the source begins with, by its rest, its offset
and its place. -/
structure StandsBehind (source : String) (text : List Char) (c : Cursor) : Prop where
  source_eq : source.toList = text ++ c.rest
  offset : c.offset = (String.ofList text).utf8ByteSize
  place : c.place = Place.behind text

variable {source : String} {text : List Char} {c : Cursor}

/-- The cursor at the front of a source `StandsBehind` the empty text. -/
theorem standsBehind_ofString (source : String) : (ofString source).StandsBehind source [] :=
  ⟨rfl, rfl, rfl⟩

/-- A cursor that moves past a text of the source `StandsBehind` that text too. -/
theorem StandsBehind.past (stands : c.StandsBehind source text) {more rest : List Char}
    (split : c.rest = more ++ rest) : (c.past more rest).StandsBehind source (text ++ more) where
  source_eq := by
    rw [stands.source_eq, split, List.append_assoc]
    rfl
  offset := by
    rw [String.ofList_append, String.utf8ByteSize_append, ← stands.offset]
    rfl
  place := by
    rw [← Place.after_start, Place.after_append, Place.after_start, ← stands.place]
    rfl

/-- **The offset of a cursor that `StandsBehind` a text lies between two characters of the source**,
or at one of its ends. -/
theorem StandsBehind.isValid (stands : c.StandsBehind source text) :
    (⟨c.offset⟩ : String.Pos.Raw).IsValid source := by
  have split : source = String.ofList text ++ String.ofList c.rest := by
    rw [← String.ofList_append, ← stands.source_eq, String.ofList_toList]
  have offset : (⟨c.offset⟩ : String.Pos.Raw) = (String.ofList text).rawEndPos := by
    rw [stands.offset]
    rfl
  exact String.Pos.Raw.isValid_iff_exists_append.2 ⟨_, _, split, offset⟩

/-- What is read with a token behind a text that has been read before: a gap first, then the
piece that spells the token, and nothing behind the gap if the source ends there. -/
structure Yields (source : String) (c : Cursor) (token : Token) (c' : Cursor)
    (text gap piece : List Char) : Prop where
  before : c.StandsBehind source text
  isGap : IsGap gap (piece ++ c'.rest)
  place : token.place = Place.behind (text ++ gap)
  isPiece : token.lexeme ≠ .endOfInput → IsPiece piece c'.rest token.lexeme
  isEnd : token.lexeme = .endOfInput → piece = [] ∧ text ++ gap = source.toList
  after : c'.StandsBehind source (text ++ gap ++ piece)

/-- **`Cursor.next` reads a gap and a piece**, its token has the place between them, and the cursor
moves on behind them. -/
theorem StandsBehind.next (stands : c.StandsBehind source text) :
    c.Yields source c.next.1 c.next.2 text (gap false c.rest) (piece (afterGap false c.rest)) := by
  have gapSplit := gap_append_afterGap false c.rest
  have pieceSplit := piece_append_afterPiece (afterGap false c.rest)
  obtain ⟨isGap, solid⟩ := (isGap_gap c.rest).1
  have gapStands : c.skipGap.StandsBehind source (text ++ gap false c.rest) :=
    stands.past gapSplit.symm
  have after : c.next.2.StandsBehind source
      (text ++ gap false c.rest ++ piece (afterGap false c.rest)) :=
    gapStands.past pieceSplit.symm
  refine ⟨stands, ?_, gapStands.place, fun inner => ?_, fun ends => ?_, after⟩
  · rw [← pieceSplit] at isGap
    exact isGap
  · exact isPiece_piece solid fun done => inner (Lexeme.ofPiece_eq_endOfInput_iff.2
      (piece_eq_nil_iff.2 done))
  · have none : piece (afterGap false c.rest) = [] := Lexeme.ofPiece_eq_endOfInput_iff.1 ends
    have done : c.skipGap.rest = [] := piece_eq_nil_iff.1 none
    have whole := gapStands.source_eq
    rw [done, List.append_nil] at whole
    exact ⟨none, whole.symm⟩

/-- The piece of a token that is not the end of input has a character. -/
theorem Yields.piece_ne_nil {token : Token} {c' : Cursor} {gap piece : List Char}
    (yields : c.Yields source token c' text gap piece) (inner : token.lexeme ≠ .endOfInput) :
    piece ≠ [] := by
  obtain ⟨first, others, rfl, -⟩ := (yields.isPiece inner).exists_cons
  exact List.cons_ne_nil first others

end Cursor

/-! ### Steps of a lexer -/

namespace Lexer

/-- One lexer reads a token and becomes another, in one of the two ways to read. -/
inductive Reads : Lexer → Token → Lexer → Prop
  | nextToken (l : Lexer) : Reads l l.nextToken.1 l.nextToken.2
  | next {l l' : Lexer} {token : Token} : l.next? = some (token, l') → Reads l token l'

/-- The states that a lexer comes to by reading a source, in whatever ways. -/
inductive Reached (source : String) : Lexer → Prop
  | start : Reached source (ofString source)
  | read {l l' : Lexer} {token : Token} :
      Reached source l → Reads l token l' → Reached source l'

variable {source : String} {l l' : Lexer} {token : Token}

/-- Both ways to read hand out the token of `Cursor.next`, and leave the cursor behind it. -/
theorem Reads.eq_next (reads : Reads l token l') :
    token = l.cursor.next.1 ∧ l'.cursor = l.cursor.next.2 := by
  cases reads with
  | nextToken => exact ⟨rfl, rfl⟩
  | next found =>
      rw [next?] at found
      split at found
      · cases found
      · cases found
        exact ⟨rfl, rfl⟩

/-- **A lexer that is `Reached` from a source stands behind the text that it has read.** -/
theorem Reached.exists_standsBehind (reached : Reached source l) :
    ∃ text, l.cursor.StandsBehind source text := by
  induction reached with
  | start => exact ⟨[], Cursor.standsBehind_ofString source⟩
  | @read l l' token _ reads ih =>
      obtain ⟨text, stands⟩ := ih
      obtain ⟨-, moved⟩ := reads.eq_next
      rw [moved]
      exact ⟨_, stands.next.after⟩

/-- Every token that a lexer holds is read in some state that is `Reached` from it. -/
theorem Reached.exists_reads (reached : Reached source l)
    (member : token ∈ TokenSource.tokens l) :
    ∃ lexer later, Reached source lexer ∧ Reads lexer token later := by
  induction held : TokenSource.tokens l generalizing l with
  | nil =>
      rw [held] at member
      cases member
  | cons first others ih =>
      cases found : l.next? with
      | none =>
          rw [TokenSource.tokens_of_next?_none found] at held
          cases held
      | some pair =>
          obtain ⟨next, l'⟩ := pair
          rw [TokenSource.tokens_of_next?_some found] at member held
          obtain ⟨rfl, rest⟩ := List.cons.inj held
          rcases List.mem_cons.1 member with rfl | later
          · exact ⟨l, l', reached, .next found⟩
          · exact ih (reached.read (.next found)) later rest

end Lexer

/-! ### The tokens of a source -/

variable {cs last : List Char} {parts : List Part}

/-- No piece spells the end of input. -/
theorem IsPiece.lexeme_ne_endOfInput {p rest : List Char} {l : Lexeme} (h : IsPiece p rest l) :
    l ≠ .endOfInput := by
  cases h <;> simp

/-- A source has no more parts than characters, and none of them spells the end of input. -/
theorem Laid.parts_lexeme (h : Laid cs parts last) :
    parts.length ≤ cs.length ∧ ∀ part ∈ parts, part.lexeme ≠ .endOfInput := by
  induction h with
  | last _ => simp
  | part _ isPiece _ ih =>
      obtain ⟨fewer, inner⟩ := ih
      obtain ⟨first, others, rfl, -⟩ := isPiece.exists_cons
      refine ⟨?_, List.forall_mem_cons.2 ⟨isPiece.lexeme_ne_endOfInput, inner⟩⟩
      simp only [List.length_cons, List.length_append]
      omega

/-- **`tokenize` finds no more tokens than a source has characters, and then its end of input.** -/
theorem exists_tokenize_eq (source : String) :
    ∃ inner, tokenize source = inner ++ [.endAt (Place.behind source.toList)] ∧
      (∀ token ∈ inner, token.lexeme ≠ .endOfInput) ∧ inner.length ≤ source.length := by
  obtain ⟨parts, last, laid⟩ := exists_laid source.toList
  obtain ⟨fewer, inner⟩ := laid.parts_lexeme
  have lexemes := Part.map_lexeme_tokens .start parts
  refine ⟨Part.tokens .start parts, ?_, fun token member => ?_, ?_⟩
  · rw [laid.tokenize_eq, Place.after_start]
  · have spelled := List.mem_map_of_mem (f := Token.lexeme) member
    rw [lexemes] at spelled
    obtain ⟨part, isPart, same⟩ := List.mem_map.1 spelled
    rw [← same]
    exact inner part isPart
  · have length := congrArg List.length lexemes
    rw [List.length_map, List.length_map] at length
    rw [length]
    exact fewer

namespace Lexer

/-- **A lexer stands where it says, and tokens have the places of their first characters.** In every
state that is `Reached` from a source, the lexer stands behind the text that it has read: its offset
is no more than the size of the source and lies between two characters, and its line and column are
those counted in that text. The next token, read in either way, has the place counted in the text
before its piece, the end of input that of the whole source; any other token has a piece of one
character at least. So the tokens of a source stand one behind the other, the end of input last, and
before it there are no more than there are characters. -/
theorem places_of_reached (source : String) :
    (∀ lexer, Reached source lexer →
      ∃ text, lexer.cursor.StandsBehind source text ∧
        lexer.cursor.offset ≤ source.utf8ByteSize ∧
        (⟨lexer.cursor.offset⟩ : String.Pos.Raw).IsValid source) ∧
      (∀ lexer token later, Reached source lexer → Reads lexer token later →
        ∃ text gap piece, lexer.cursor.Yields source token later.cursor text gap piece ∧
          (token.lexeme ≠ .endOfInput → piece ≠ [])) ∧
      (∀ token ∈ tokenize source,
        ∃ lexer later, Reached source lexer ∧ Reads lexer token later) ∧
      (tokenize source).Pairwise (fun s t => s.place.Before t.place) ∧
      ∃ inner, tokenize source = inner ++ [.endAt (Place.behind source.toList)] ∧
        (∀ token ∈ inner, token.lexeme ≠ .endOfInput) ∧ inner.length ≤ source.length := by
  refine ⟨fun lexer reached => ?_, fun lexer token later reached reads => ?_,
    fun token member => ?_, pairwise_tokens (ofString source), exists_tokenize_eq source⟩
  · obtain ⟨text, stands⟩ := reached.exists_standsBehind
    have valid := stands.isValid
    exact ⟨text, stands, valid.le_rawEndPos, valid⟩
  · obtain ⟨text, stands⟩ := reached.exists_standsBehind
    obtain ⟨rfl, moved⟩ := reads.eq_next
    rw [moved]
    exact ⟨text, _, _, stands.next, stands.next.piece_ne_nil⟩
  · exact Reached.start.exists_reads member

/-- A lexer that has read a word of one letter, which takes two bytes. -/
def accented : Lexer :=
  (ofString "é \"\n").nextToken.2

/-- Behind its letter, the lexer `accented` stands in the second column, and behind the second byte.
The next token is a string that is not closed, and ends on the second line. -/
theorem places_of_reached_accented :
    Reached "é \"\n" accented ∧ Reads accented accented.nextToken.1 accented.nextToken.2 ∧
      (∃ text, accented.cursor.StandsBehind "é \"\n" text ∧
        accented.cursor.offset ≤ "é \"\n".utf8ByteSize ∧
        (⟨accented.cursor.offset⟩ : String.Pos.Raw).IsValid "é \"\n") ∧
      accented.cursor.offset = 2 ∧ accented.cursor.place = ⟨1, 2⟩ ∧
      accented.nextToken.1.lexeme ≠ .endOfInput ∧
      (∃ text gap piece, accented.cursor.Yields "é \"\n" accented.nextToken.1
          accented.nextToken.2.cursor text gap piece ∧ piece ≠ []) ∧
      accented.nextToken.1.place = ⟨1, 3⟩ ∧ accented.nextToken.2.cursor.place = ⟨2, 1⟩ ∧
      accented.nextToken.1 ∈ tokenize "é \"\n" ∧
      ∃ lexer later, Reached "é \"\n" lexer ∧ Reads lexer accented.nextToken.1 later := by
  have reached : Reached "é \"\n" accented := .read .start (.nextToken (ofString "é \"\n"))
  have reads : Reads accented accented.nextToken.1 accented.nextToken.2 := .nextToken accented
  have inner : accented.nextToken.1.lexeme ≠ .endOfInput := by
    have string : accented.nextToken.1.lexeme = .string "\n" := rfl
    rw [string]
    simp
  have member : accented.nextToken.1 ∈ tokenize "é \"\n" := by
    have first : tokenize "é \"\n" = _ :: TokenSource.tokens accented := tokens_unfinished _
    have second : TokenSource.tokens accented = accented.nextToken.1 :: _ := tokens_unfinished _
    rw [first, second]
    exact List.mem_cons_of_mem _ List.mem_cons_self
  obtain ⟨stands, next, handedOut, -, -⟩ := places_of_reached "é \"\n"
  obtain ⟨text, gap, piece, yields, nonempty⟩ := next _ _ _ reached reads
  exact ⟨reached, reads, stands _ reached, rfl, rfl, inner,
    ⟨text, gap, piece, yields, nonempty inner⟩, rfl, rfl, member, handedOut _ member⟩

end Lexer

end SmallScheme
