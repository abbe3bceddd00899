import SmallScheme.Proofs.Token.Places

/-!
# Reading on in several ways

A lexer can be asked for one token with or without regard to its note that the end was handed out,
and for all the tokens that it still holds. Whichever way it is asked, it hands out the next tokens
of one sequence: those of the source, of which the last, the end of input, comes again and again
(`tokenAt`). How it was asked shows only in the note, since one of the ways does not take it.

## Main results

* `Cursor.IsAt.next`: a cursor at one token of a source reads that token and comes to the next.
* `Lexer.handedOut_eq`: any readings hand out the sequence from where the lexer stands.
* `Lexer.finished_after_iff`: which readings the note tells of.
* `Lexer.handedOut_interleaved`: what readings of a source hand out, and what is left to be asked
  for.
-/

namespace SmallScheme

/-! ### Draining a source -/

namespace TokenSource

variable {σ : Type} [TokenSource σ] {s s' : σ} {token : Token}

theorem drain_of_next?_none (found : next? s = none) : drain s = ([], s) := by
  rw [drain]
  split
  · rfl
  · next other => rw [found] at other; cases other

theorem drain_of_next?_some (found : next? s = some (token, s')) :
    drain s = (token :: (drain s').1, (drain s').2) := by
  rw [drain]
  split
  · next other => rw [found] at other; cases other
  · next other =>
    rw [found] at other
    cases other
    rfl

/-- What `TokenSource.drain` leaves of a source hands out nothing. -/
theorem next?_drain (s : σ) : next? (drain s).2 = none := by
  cases found : next? s with
  | none =>
      rw [drain_of_next?_none found]
      exact found
  | some taken =>
      obtain ⟨token, s'⟩ := taken
      have smaller := size_lt found
      rw [drain_of_next?_some found]
      exact next?_drain s'
termination_by size s

end TokenSource

/-! ### The sequence of a source -/

/-- The token of a number in the sequence of a source, counted from zero. The last token of the
source, its end, has all higher numbers too. -/
def tokenAt (source : String) (i : Nat) : Token :=
  (tokenize source).getD i (.endAt (Place.behind source.toList))

/-- `tokenAt` goes through the tokens of `tokenize` and stays at the last. -/
theorem exists_getElem?_min (source : String) :
    ∃ n, (tokenize source).length = n + 1 ∧
      ∀ i, (tokenize source)[min i n]? = some (tokenAt source i) := by
  obtain ⟨inner, whole, -, -⟩ := exists_tokenize_eq source
  refine ⟨inner.length, ?_, ?_⟩
  · rw [whole, List.length_append, List.length_singleton]
  · intro i
    rw [tokenAt, whole, List.getD_eq_getElem?_getD]
    rcases Nat.lt_or_ge i inner.length with inside | behind
    · rw [Nat.min_eq_left (Nat.le_of_lt inside), List.getElem?_append_left inside,
        List.getElem?_eq_getElem inside]
      rfl
    · rw [Nat.min_eq_right behind, List.getElem?_append_right behind,
        List.getElem?_append_right (Nat.le_refl _), Nat.sub_self]
      cases i - inner.length with
      | zero => rfl
      | succ more => rfl

/-- `tokenAt` does not change behind the end of input. -/
theorem tokenAt_of_le {source : String} {i j : Nat} (later : i ≤ j)
    (ends : (tokenAt source i).kind = .endOfInput) : tokenAt source j = tokenAt source i := by
  obtain ⟨inner, whole, isInner, -⟩ := exists_tokenize_eq source
  have behind : inner.length ≤ i := by
    by_contra inside
    have isToken : tokenAt source i = inner[i] := by
      rw [tokenAt, whole, List.getD_eq_getElem?_getD, List.getElem?_append_left (by omega),
        List.getElem?_eq_getElem (by omega)]
      rfl
    rw [isToken] at ends
    exact isInner _ (List.getElem_mem _) (Lexeme.kind_eq_endOfInput_iff.1 ends)
  obtain ⟨n, length, numbered⟩ := exists_getElem?_min source
  have last : n = inner.length := by
    rw [whole, List.length_append, List.length_singleton] at length
    omega
  have same : min j n = min i n := by omega
  have found := numbered j
  rw [same, numbered i] at found
  exact (Option.some.inj found).symm

namespace Cursor

/-- Whether a cursor stands before the token of a number: from there on, a source has this token and
those behind it. -/
def IsAt (source : String) (i : Nat) (c : Cursor) : Prop :=
  TokenSource.tokens (⟨c, false⟩ : Lexer) =
    (tokenize source).drop (min i ((tokenize source).length - 1))

variable {source : String} {c : Cursor} {i : Nat}

/-- The cursor at the front of a source stands before its first token. -/
theorem isAt_ofString (source : String) : (ofString source).IsAt source 0 := by
  rw [IsAt, Nat.zero_min]
  rfl

/-- Behind the end of input, a cursor has only the end of input in front of it again. -/
theorem tokens_next_of_end (ends : c.next.1.kind = .endOfInput) :
    TokenSource.tokens (⟨c.next.2, false⟩ : Lexer) = [c.next.1] := by
  have none : piece c.skipGap.rest = [] :=
    Lexeme.ofPiece_eq_endOfInput_iff.1 (Lexeme.kind_eq_endOfInput_iff.1 ends)
  have done : c.skipGap.rest = [] := piece_eq_nil_iff.1 none
  have nothing : c.next.2.rest = [] := by
    change afterPiece c.skipGap.rest = []
    rw [done]
    rfl
  have laid : Laid c.next.2.rest [] [] := by
    rw [nothing]
    exact .last .nil
  have place : c.next.2.place = c.skipGap.place := by
    change c.skipGap.place.after (piece c.skipGap.rest) = c.skipGap.place
    rw [none, Place.after_nil]
  have token : c.next.1 = .endAt c.skipGap.place := by
    rw [next, none]
    rfl
  rw [laid.tokens_eq, nothing, place, token]
  rfl

/-- **`Cursor.next` at token `i` of a source reads that token**, and leaves the cursor at token
`i + 1`. -/
theorem IsAt.next (stands : c.IsAt source i) :
    c.next.1 = tokenAt source i ∧ c.next.2.IsAt source (i + 1) := by
  obtain ⟨inner, whole, isInner, -⟩ := exists_tokenize_eq source
  have ahead (k : Nat) : (tokenize source).drop (min k ((tokenize source).length - 1)) =
      inner.drop k ++ [.endAt (Place.behind source.toList)] := by
    rw [whole, List.length_append, List.length_singleton, Nat.add_sub_cancel, Nat.min_comm,
      List.drop_append_of_le_length (Nat.min_le_left _ _), Nat.min_comm, ← List.drop_eq_drop_min]
  rw [IsAt, ahead, Lexer.tokens_unfinished] at stands
  rw [IsAt, ahead, tokenAt, whole, List.getD_eq_getElem?_getD]
  cases left : inner.drop i with
  | nil =>
      obtain ⟨isEnd, -⟩ : c.next.1 = .endAt (Place.behind source.toList) ∧ _ := by
        rw [left] at stands
        exact List.cons.inj stands
      have behind : inner.length ≤ i := List.drop_eq_nil_iff.1 left
      have ends : c.next.1.kind = .endOfInput := by
        rw [isEnd]
        rfl
      refine ⟨?_, ?_⟩
      · rw [isEnd, List.getElem?_append_right behind]
        cases i - inner.length <;> rfl
      · rw [tokens_next_of_end ends, isEnd, List.drop_of_length_le (by omega)]
        rfl
  | cons token others =>
      obtain ⟨isToken, rest⟩ : c.next.1 = token ∧ _ := by
        rw [left] at stands
        exact List.cons.inj stands
      have member : token ∈ inner := by
        have front : token ∈ inner.drop i := by
          rw [left]
          exact List.mem_cons_self
        exact List.mem_of_mem_drop front
      have inside : inner[i]? = some token := by
        rw [← List.head?_drop, left]
        rfl
      have going : c.next.1.kind ≠ .endOfInput := by
        rw [isToken]
        exact mt Lexeme.kind_eq_endOfInput_iff.1 (isInner token member)
      obtain ⟨bound, -⟩ := List.getElem?_eq_some_iff.1 inside
      refine ⟨?_, ?_⟩
      · rw [isToken, List.getElem?_append_left bound, inside]
        rfl
      · rw [decide_eq_false going] at rest
        rw [rest, ← List.drop_drop, left]
        rfl

end Cursor

/-! ### Readings -/

namespace Lexer

/-- What a lexer can be asked for: its next token unless the end was handed out, its next token in
any case, or all the tokens that it still holds. -/
inductive Reading where
  | next
  | nextToken
  | rest
deriving DecidableEq, Repr

/-- The tokens that a lexer hands out for a reading, and the lexer behind them. -/
def read (l : Lexer) : Reading → List Token × Lexer
  | .next =>
    match l.next? with
    | some (token, l') => ([token], l')
    | none => ([], l)
  | .nextToken => ([l.nextToken.1], l.nextToken.2)
  | .rest => TokenSource.drain l

/-- The lexer after readings, one after another. -/
def after (l : Lexer) : List Reading → Lexer
  | [] => l
  | reading :: readings => (l.read reading).2.after readings

/-- All tokens that readings hand out, in their order. -/
def handedOut (l : Lexer) : List Reading → List Token
  | [] => []
  | reading :: readings => (l.read reading).1 ++ (l.read reading).2.handedOut readings

variable {source : String} {l : Lexer} {i : Nat}

/-- A lexer whose end was not handed out hands out the token at its cursor. -/
theorem next?_of_unfinished (going : l.finished = false) :
    l.next? = some (l.cursor.next.1, ⟨l.cursor.next.2, l.cursor.next.1.kind = .endOfInput⟩) := by
  rw [next?, going]
  rfl

/-- A lexer whose end was handed out hands out nothing by `Lexer.next?`. -/
theorem next?_of_finished (done : l.finished = true) : l.next? = none := by
  rw [next?, done]
  rfl

/-- The reading `Reading.next` gives nothing exactly when the end was handed out. -/
theorem read_next_eq_nil_iff (l : Lexer) : (l.read .next).1 = [] ↔ l.finished = true := by
  cases note : l.finished with
  | true => simp [read, next?_of_finished note]
  | false => simp [read, next?_of_unfinished note]

/-- The reading `Reading.next` gives the token at the cursor if the end was not handed out. -/
theorem read_next_of_unfinished (going : l.finished = false) :
    (l.read .next).1 = [l.cursor.next.1] := by
  rw [read, next?_of_unfinished going]

/-- The reading `Reading.rest` gives nothing if the end was handed out. -/
theorem read_rest_of_finished (done : l.finished = true) : (l.read .rest).1 = [] := by
  rw [read, TokenSource.drain_of_next?_none (next?_of_finished done)]

/-- The reading `Reading.rest` gives all tokens from the cursor on if the end was not handed out. -/
theorem read_rest_of_unfinished (going : l.finished = false) (stands : l.cursor.IsAt source i) :
    (l.read .rest).1 = (tokenize source).drop (min i ((tokenize source).length - 1)) := by
  have same : l = ⟨l.cursor, false⟩ := by rw [← going]
  rw [Cursor.IsAt, ← same] at stands
  exact stands

/-- Token `i` of a source and the `count` tokens behind it are the `count + 1` tokens from `i`
on. -/
theorem tokenAt_cons (source : String) (i count : Nat) :
    tokenAt source i :: (List.range' (i + 1) count).map (tokenAt source) =
      (List.range' i (count + 1)).map (tokenAt source) := by
  rw [List.range'_succ, List.map_cons]

/-- `TokenSource.drain` of a lexer hands out tokens of `tokenAt` from its cursor on, and leaves the
cursor behind them. -/
theorem drain_eq {l : Lexer} {i : Nat} (stands : l.cursor.IsAt source i) :
    ∃ count, (TokenSource.drain l).1 = (List.range' i count).map (tokenAt source) ∧
      (TokenSource.drain l).2.cursor.IsAt source (i + count) := by
  cases note : l.finished with
  | true =>
      rw [TokenSource.drain_of_next?_none (next?_of_finished note)]
      exact ⟨0, rfl, stands⟩
  | false =>
      have found := next?_of_unfinished note
      have smaller := size_next?_lt found
      obtain ⟨isToken, further⟩ := stands.next
      obtain ⟨count, handed, behind⟩ :=
        drain_eq (l := ⟨l.cursor.next.2, l.cursor.next.1.kind = .endOfInput⟩) further
      rw [TokenSource.drain_of_next?_some found]
      refine ⟨count + 1, ?_, ?_⟩
      · rw [handed, isToken, tokenAt_cons]
      · rw [Nat.add_comm count 1, ← Nat.add_assoc]
        exact behind
termination_by l.size

/-- **Every `Lexer.read` hands out tokens of `tokenAt` from the cursor on**, and leaves the cursor
behind them. -/
theorem read_eq (stands : l.cursor.IsAt source i) (reading : Reading) :
    ∃ count, (l.read reading).1 = (List.range' i count).map (tokenAt source) ∧
      (l.read reading).2.cursor.IsAt source (i + count) := by
  obtain ⟨isToken, further⟩ := stands.next
  cases reading with
  | next =>
      cases note : l.finished with
      | true =>
          rw [read, next?_of_finished note]
          exact ⟨0, rfl, stands⟩
      | false =>
          rw [read, next?_of_unfinished note]
          exact ⟨1, congrArg (fun token => [token]) isToken, further⟩
  | nextToken => exact ⟨1, congrArg (fun token => [token]) isToken, further⟩
  | rest => exact drain_eq stands

/-- **Any readings together hand out tokens of `tokenAt` from the cursor on**, and leave the cursor
behind them. -/
theorem handedOut_eq (stands : l.cursor.IsAt source i) (readings : List Reading) :
    l.handedOut readings =
        (List.range' i (l.handedOut readings).length).map (tokenAt source) ∧
      (l.after readings).cursor.IsAt source (i + (l.handedOut readings).length) := by
  induction readings generalizing l i with
  | nil => exact ⟨rfl, stands⟩
  | cons reading readings ih =>
      obtain ⟨count, handed, behind⟩ := read_eq stands reading
      obtain ⟨others, last⟩ := ih behind
      have length : (l.read reading).1.length = count := by
        rw [handed, List.length_map, List.length_range']
      rw [handedOut, after, List.length_append, length]
      refine ⟨?_, ?_⟩
      · rw [← List.range'_append_1, List.map_append, ← others, ← handed]
      · rw [← Nat.add_assoc]
        exact last

/-- If readings have handed out the end of input, the token at the cursor behind them is that
end. -/
theorem next_of_end_mem_handedOut (stands : l.cursor.IsAt source i) {readings : List Reading}
    {token : Token} (member : token ∈ l.handedOut readings) (ends : token.kind = .endOfInput) :
    (l.after readings).cursor.next.1 = token := by
  obtain ⟨handed, behind⟩ := handedOut_eq stands readings
  rw [handed] at member
  obtain ⟨k, isNumber, rfl⟩ := List.mem_map.1 member
  obtain ⟨-, inside⟩ := List.mem_range'_1.1 isNumber
  rw [behind.next.1]
  exact tokenAt_of_le (by omega) ends

/-! ### The note -/

/-- Whether one of several readings handed out the end of input in a way that is noted. -/
def NotesEnd (l : Lexer) (readings : List Reading) : Prop :=
  ∃ front reading behind, readings = front ++ reading :: behind ∧ reading ≠ .nextToken ∧
    ∃ token ∈ ((l.after front).read reading).1, token.kind = .endOfInput

/-- A lexer whose end was not handed out holds the end of input. -/
theorem exists_end_of_unfinished (going : l.finished = false) :
    ∃ token ∈ TokenSource.tokens l, token.kind = .endOfInput := by
  obtain ⟨c, finished⟩ := l
  obtain rfl : finished = false := going
  obtain ⟨parts, last, laid⟩ := exists_laid c.rest
  refine ⟨.endAt (c.place.after c.rest), ?_, rfl⟩
  rw [laid.tokens_eq]
  exact List.mem_append_right _ List.mem_cons_self

/-- `Lexer.read` marks the lexer as finished if it hands out the end of input, unless the reading is
`Reading.nextToken`. -/
theorem finished_read_iff (l : Lexer) (reading : Reading) :
    (l.read reading).2.finished = true ↔
      l.finished = true ∨
        reading ≠ .nextToken ∧ ∃ token ∈ (l.read reading).1, token.kind = .endOfInput := by
  cases reading with
  | next =>
      cases note : l.finished with
      | true => simp [read, next?_of_finished note, note]
      | false => simp [read, next?_of_unfinished note]
  | nextToken => simp [read, nextToken]
  | rest =>
      have left : (TokenSource.drain l).2.next? = none := TokenSource.next?_drain l
      have done : (TokenSource.drain l).2.finished = true := by
        by_contra going
        rw [next?_of_unfinished (Bool.eq_false_iff.2 going)] at left
        cases left
      cases note : l.finished with
      | true => simp [read, done]
      | false =>
          have handed : ∃ token ∈ (TokenSource.drain l).1, token.kind = .endOfInput :=
            exists_end_of_unfinished note
          simp [read, done, handed]

/-- A first reading and others note the end exactly when the first does, or the others do behind
it. -/
theorem notesEnd_cons_iff (l : Lexer) (reading : Reading) (readings : List Reading) :
    l.NotesEnd (reading :: readings) ↔
      (reading ≠ .nextToken ∧ ∃ token ∈ (l.read reading).1, token.kind = .endOfInput) ∨
        (l.read reading).2.NotesEnd readings := by
  constructor
  · rintro ⟨front, noting, behind, whole, handed⟩
    cases front with
    | nil =>
        obtain ⟨rfl, -⟩ := List.cons.inj whole
        exact Or.inl handed
    | cons first front =>
        obtain ⟨rfl, others⟩ := List.cons.inj whole
        exact Or.inr ⟨front, noting, behind, others, handed⟩
  · rintro (handed | ⟨front, noting, behind, rfl, handed⟩)
    · exact ⟨[], reading, readings, rfl, handed⟩
    · exact ⟨reading :: front, noting, behind, rfl, handed⟩

/-- **A lexer is finished after readings exactly when it was before or the readings note the
end.** -/
theorem finished_after_iff (l : Lexer) (readings : List Reading) :
    (l.after readings).finished = true ↔ l.finished = true ∨ l.NotesEnd readings := by
  induction readings generalizing l with
  | nil =>
      have none : ¬ l.NotesEnd [] := by
        rintro ⟨front, reading, behind, whole, -⟩
        simp at whole
      rw [after]
      exact ⟨Or.inl, fun noted => noted.resolve_right none⟩
  | cons reading readings ih =>
      rw [after, ih, finished_read_iff, notesEnd_cons_iff, or_assoc]

/-! ### All readings of a source -/

/-- **Any readings of a source see one sequence of tokens.** However its ways of reading are mixed,
the token handed out with a number is the one of that number in the source, or the last. Asking for
the next one is answered by nothing just when the end has been handed out, and not by asking in any
case; asking for the rest is answered by nothing then, and by the tokens behind those handed out up
to the end otherwise. Once the end has been handed out, asking in any case gives the same token
again; if that was the only way in which it was handed out, so does asking for the next one, but
once and never again. -/
theorem handedOut_interleaved (source : String) :
    ∃ n, (tokenize source).length = n + 1 ∧ ∀ readings : List Reading,
      (∀ j token, ((ofString source).handedOut readings)[j]? = some token →
        (tokenize source)[min j n]? = some token) ∧
      ((((ofString source).after readings).read .next).1 = [] ↔
        (ofString source).NotesEnd readings) ∧
      ((ofString source).NotesEnd readings →
        (((ofString source).after readings).read .rest).1 = []) ∧
      (¬ (ofString source).NotesEnd readings →
        (((ofString source).after readings).read .rest).1 =
          (tokenize source).drop (min ((ofString source).handedOut readings).length n)) ∧
      ∀ token ∈ (ofString source).handedOut readings, token.kind = .endOfInput →
        (((ofString source).after readings).read .nextToken).1 = [token] ∧
        (¬ (ofString source).NotesEnd readings →
          (((ofString source).after readings).read .next).1 = [token] ∧
          ∀ later, (((ofString source).after (readings ++ .next :: later)).read .next).1 = []) := by
  obtain ⟨n, length, numbered⟩ := exists_getElem?_min source
  have start : (ofString source).cursor.IsAt source 0 := Cursor.isAt_ofString source
  have noted (readings : List Reading) : ((ofString source).after readings).finished = true ↔
      (ofString source).NotesEnd readings :=
    (finished_after_iff _ readings).trans (or_iff_right Bool.false_ne_true)
  have going {readings : List Reading} (unnoted : ¬ (ofString source).NotesEnd readings) :
      ((ofString source).after readings).finished = false :=
    Bool.eq_false_iff.2 (mt (noted readings).1 unnoted)
  have silent (readings : List Reading) : (((ofString source).after readings).read .next).1 = [] ↔
      (ofString source).NotesEnd readings :=
    (read_next_eq_nil_iff _).trans (noted readings)
  refine ⟨n, length, fun readings => ?_⟩
  obtain ⟨handed, stands⟩ := handedOut_eq start readings
  rw [Nat.zero_add] at stands
  refine ⟨fun j token isToken => ?_, silent readings, fun ended => ?_, fun unnoted => ?_,
    fun token member ends => ?_⟩
  · rw [handed, List.getElem?_map] at isToken
    obtain ⟨k, isNumber, rfl⟩ := Option.map_eq_some_iff.1 isToken
    obtain ⟨_, isIndex⟩ := List.getElem?_eq_some_iff.1 isNumber
    rw [List.getElem_range'] at isIndex
    obtain rfl : j = k := by omega
    exact numbered j
  · exact read_rest_of_finished ((noted readings).2 ended)
  · rw [read_rest_of_unfinished (going unnoted) stands, length, Nat.add_sub_cancel]
  · have again := next_of_end_mem_handedOut start member ends
    refine ⟨congrArg (fun token => [token]) again, fun unnoted => ?_⟩
    have next := read_next_of_unfinished (going unnoted)
    rw [again] at next
    refine ⟨next, fun later => (silent _).2 ?_⟩
    refine ⟨readings, .next, later, rfl, by simp, token, ?_, ends⟩
    rw [next]
    exact List.mem_cons_self

/-- The end of an empty source, asked for twice in any case: the next token is the end once more,
and then there is none. -/
theorem handedOut_interleaved_empty :
    (ofString "").handedOut [.nextToken, .nextToken] =
        [.endAt Place.start, .endAt Place.start] ∧
      ¬ (ofString "").NotesEnd [.nextToken, .nextToken] ∧
      (((ofString "").after [.nextToken, .nextToken]).read .next).1 = [.endAt Place.start] ∧
      (((ofString "").after [.nextToken, .nextToken, .next]).read .next).1 = [] := by
  have handed : (ofString "").handedOut [.nextToken, .nextToken] =
      [.endAt Place.start, .endAt Place.start] := rfl
  have member : Token.endAt Place.start ∈ (ofString "").handedOut [.nextToken, .nextToken] := by
    rw [handed]
    exact List.mem_cons_self
  have unnoted : ¬ (ofString "").NotesEnd [.nextToken, .nextToken] := by
    have going : ((ofString "").after [.nextToken, .nextToken]).finished = false := rfl
    rintro noted
    have done := (finished_after_iff _ _).2 (Or.inr noted)
    rw [going] at done
    cases done
  obtain ⟨n, -, all⟩ := handedOut_interleaved ""
  obtain ⟨-, -, -, -, ended⟩ := all [.nextToken, .nextToken]
  obtain ⟨-, further⟩ := ended (.endAt Place.start) member rfl
  obtain ⟨next, silent⟩ := further unnoted
  exact ⟨handed, unnoted, next, silent []⟩

end Lexer

end SmallScheme
