import SmallScheme.Proofs.Number.Nearest
import SmallScheme.Proofs.Token.Places

/-!
# Numerals

Which text a number token is read from, and that the reading never fails. The lexer takes a number
for one by its first character, a digit, and takes all digits and points behind it. What stands
before the second point of such a run begins with the digit and has one point at most, so it is the
text of a decimal, whatever points there are further on. The zero that a text without a decimal
would be read as is never needed.

## Main results

* `Decimal.upToSecondPoint_append_point`: behind a point, a further point ends what counts.
* `IsRun.isPlain`: what stands before the second point of a run that begins with a digit.
* `IsRun.isNumeral`: what a run that begins with a digit is read as.
* `Lexer.exists_isNumeral_of_lexeme_eq_number`: what the number tokens of a source are read from.
-/

namespace SmallScheme

namespace Decimal

/-- **`Decimal.upToSecondPoint` drops every further point behind a point**, and all that follows
it. -/
theorem upToSecondPoint_append_point {run : List Char} (point : '.' ∈ run) (more : List Char) :
    upToSecondPoint (run ++ '.' :: more) = upToSecondPoint run := by
  obtain ⟨whole, behind, rfl, first⟩ := List.eq_append_cons_of_mem point
  rw [List.append_assoc, List.cons_append]
  by_cases second : '.' ∈ behind
  · obtain ⟨fraction, rest, rfl, noPoint⟩ := List.eq_append_cons_of_mem second
    rw [List.append_assoc, upToSecondPoint_append first noPoint (by simp),
      upToSecondPoint_append first noPoint (by simp)]
  · have alone : upToSecondPoint (whole ++ '.' :: (behind ++ [])) = _ :=
      upToSecondPoint_append first second (by simp)
    rw [List.append_nil] at alone
    rw [alone, upToSecondPoint_append first second (by simp)]

end Decimal

/-! ### Runs -/

/-- A run of digits and points that begins with a digit. -/
structure IsRun (run : List Char) : Prop where
  first : ∃ c cs, run = c :: cs ∧ c.isDigit = true
  inside : ∀ c ∈ run, c.isDigit = true ∨ c = '.'

/-- The decimal texts that a run can begin with: one digit at least, and then perhaps a point and
further digits. -/
inductive IsPlain : List Char → Prop
  | whole {digits : List Char} : digits ≠ [] → (∀ c ∈ digits, c.isDigit = true) → IsPlain digits
  | point {whole fraction : List Char} : whole ≠ [] → (∀ c ∈ whole, c.isDigit = true) →
      (∀ c ∈ fraction, c.isDigit = true) → IsPlain (whole ++ '.' :: fraction)

variable {run : List Char}

/-- **`Decimal.upToSecondPoint` of a run that begins with a digit is a plain decimal text.** -/
theorem IsRun.isPlain (isRun : IsRun run) : IsPlain (Decimal.upToSecondPoint run) := by
  obtain ⟨⟨c, cs, isFirst, digit⟩, inside⟩ := isRun
  obtain ⟨d, denotes⟩ := Decimal.exists_denotes inside
  cases denotes with
  | whole digits =>
      rw [Decimal.upToSecondPoint_of_notMem (Decimal.point_notMem digits)]
      exact .whole (by rw [isFirst]; exact List.cons_ne_nil c cs) digits
  | @point whole fraction rest digits places stop =>
      rw [Decimal.upToSecondPoint_append (Decimal.point_notMem digits)
        (Decimal.point_notMem places) stop]
      refine .point ?_ digits places
      rintro rfl
      obtain ⟨rfl, -⟩ := List.cons.inj isFirst
      cases digit

/-- A plain decimal text is the text of some decimal. -/
theorem IsPlain.exists_isText {text : List Char} (isPlain : IsPlain text) :
    ∃ d, Decimal.IsText text d := by
  cases isPlain with
  | whole nonempty digits => exact ⟨_, .whole digits nonempty⟩
  | point nonempty digits places =>
      exact ⟨_, .point digits places fun empty => nonempty (List.append_eq_nil_iff.1 empty).1⟩

/-- What a run is read as: the correctly rounded double of the decimal before its second point. -/
structure IsNumeral (run : List Char) (x : Number) : Prop where
  isRun : IsRun run
  isPlain : IsPlain (Decimal.upToSecondPoint run)
  literal : x = Number.ofLiteral run
  read : ∃ d, Decimal.IsText (Decimal.upToSecondPoint run) d ∧
    Decimal.ofText? (Decimal.upToSecondPoint run) = some d ∧ x = d.toNumber ∧
    Number.IsNearest d.value x
  defined : x.isNaN = false
  positive : x.isNegative = false

/-- **`Number.ofLiteral` of a run that begins with a digit is the double nearest to the decimal
before the second point.** -/
theorem IsRun.isNumeral (isRun : IsRun run) : IsNumeral run (Number.ofLiteral run) := by
  obtain ⟨d, isText⟩ := isRun.isPlain.exists_isText
  have literal : Number.ofLiteral run = d.toNumber := by
    rw [Number.ofLiteral, Decimal.ofLiteral_of_isText isText]
  refine ⟨isRun, isRun.isPlain, rfl, ⟨d, isText, Decimal.ofText?_eq_some_iff.2 isText, literal, ?_⟩,
    Number.isNaN_ofLiteral run, Number.isNegative_ofLiteral run⟩
  rw [literal]
  exact d.isNearest_toNumber

/-- Behind a point, a run can be continued by a further point and any digits and points, and
`Number.ofLiteral` reads it as before. -/
theorem IsRun.append_point (isRun : IsRun run) (point : '.' ∈ run) {more : List Char}
    (others : ∀ c ∈ more, c.isDigit = true ∨ c = '.') :
    IsRun (run ++ '.' :: more) ∧
      Number.ofLiteral (run ++ '.' :: more) = Number.ofLiteral run := by
  obtain ⟨⟨c, cs, rfl, digit⟩, inside⟩ := isRun
  refine ⟨⟨⟨c, cs ++ '.' :: more, rfl, digit⟩, ?_⟩, ?_⟩
  · exact List.forall_mem_append.2 ⟨inside, List.forall_mem_cons.2 ⟨Or.inr rfl, others⟩⟩
  · rw [Number.ofLiteral, Decimal.ofLiteral, Decimal.upToSecondPoint_append_point point]
    rfl

/-! ### Tokens -/

/-- A piece that spells a number is a run that is read as that number, and no digit or point follows
it. -/
theorem IsPiece.isNumeral {p rest : List Char} {x : Number} (h : IsPiece p rest (.number x)) :
    IsNumeral p x ∧ ∀ c ∈ rest.head?, c.isDigit = false ∧ c ≠ '.' := by
  cases h with
  | @number c run _ d digit inside stop denotes =>
      have isRun : IsRun (c :: run) :=
        ⟨⟨c, run, rfl, digit⟩, List.forall_mem_cons.2 ⟨Or.inl digit, inside⟩⟩
      have numeral := isRun.isNumeral
      rw [Number.ofLiteral, denotes.ofLiteral_eq] at numeral
      exact ⟨numeral, stop⟩

/-- `tokenize` of a source that is one run finds a single number before the end of input. -/
theorem IsRun.map_lexeme_tokenize (isRun : IsRun run) :
    (tokenize (String.ofList run)).map Token.lexeme =
      [.number (Number.ofLiteral run), .endOfInput] := by
  obtain ⟨⟨c, cs, rfl, digit⟩, inside⟩ := isRun
  have isPiece : IsPiece (c :: cs) [] (.number (Number.ofLiteral (c :: cs))) :=
    .number digit (fun x member => inside x (List.mem_cons_of_mem c member)) (by simp)
      (Decimal.denotes_ofLiteral inside)
  have spells := isPiece.spells spells_nil
  rw [List.append_nil] at spells
  have spelled : Spells (String.ofList (c :: cs)).toList
      [.number (Number.ofLiteral (c :: cs))] := by
    rw [String.toList_ofList]
    exact spells
  exact spelled.map_lexeme_tokenize

namespace Lexer

/-- A number token that a lexer reads is spelled by a piece in front of the lexer. -/
theorem Reached.yields_number {source : String} {lexer later : Lexer} {token : Token} {x : Number}
    (reached : Reached source lexer) (reads : Reads lexer token later)
    (isNumber : token.lexeme = .number x) :
    ∃ text gap run, lexer.cursor.Yields source token later.cursor text gap run ∧
      IsPiece run later.cursor.rest (.number x) := by
  obtain ⟨text, stands⟩ := reached.exists_standsBehind
  obtain ⟨rfl, moved⟩ := reads.eq_next
  have next := stands.next
  rw [← moved] at next
  have isPiece := next.isPiece (by rw [isNumber]; exact Lexeme.noConfusion)
  rw [isNumber] at isPiece
  exact ⟨text, _, _, next, isPiece⟩

/-- **Every number token is the correctly rounded double of what it is read from.** However the
tokens of a source are read, a number among them comes from a run of digits and points that begins
with a digit. What stands before the second point of the run is the text of a decimal, so reading it
never fails, and the number is the double nearest to that decimal, no not-a-number and without a
sign. This holds for the tokens of a source, each read from all digits and points that there are at
its place. Every run is read so, as one token; and behind a point, a further point and any digits
and points belong to the same run and change nothing about the number. -/
theorem exists_isNumeral_of_lexeme_eq_number :
    (∀ (source : String) (lexer later : Lexer) (token : Token) (x : Number),
      Reached source lexer → Reads lexer token later → token.lexeme = .number x →
      ∃ text gap run,
        lexer.cursor.Yields source token later.cursor text gap run ∧ IsNumeral run x) ∧
    (∀ (source : String) (token : Token) (x : Number),
      token ∈ tokenize source → token.lexeme = .number x →
      ∃ text run rest, source.toList = text ++ run ++ rest ∧ token.place = Place.behind text ∧
        (∀ c ∈ rest.head?, c.isDigit = false ∧ c ≠ '.') ∧ IsNumeral run x) ∧
    ∀ run : List Char, IsRun run →
      IsNumeral run (Number.ofLiteral run) ∧
      (tokenize (String.ofList run)).map Token.lexeme =
        [.number (Number.ofLiteral run), .endOfInput] ∧
      ∀ more : List Char, '.' ∈ run → (∀ c ∈ more, c.isDigit = true ∨ c = '.') →
        IsRun (run ++ '.' :: more) ∧
          Number.ofLiteral (run ++ '.' :: more) = Number.ofLiteral run := by
  refine ⟨fun source lexer later token x reached reads isNumber => ?_,
    fun source token x member isNumber => ?_, fun run isRun => ?_⟩
  · obtain ⟨text, gap, run, next, isPiece⟩ := reached.yields_number reads isNumber
    exact ⟨text, gap, run, next, isPiece.isNumeral.1⟩
  · obtain ⟨lexer, later, reached, reads⟩ := Reached.start.exists_reads member
    obtain ⟨text, gap, run, next, isPiece⟩ := reached.yields_number reads isNumber
    obtain ⟨numeral, stop⟩ := isPiece.isNumeral
    exact ⟨text ++ gap, run, later.cursor.rest, next.after.source_eq, next.place, stop, numeral⟩
  · exact ⟨isRun.isNumeral, isRun.map_lexeme_tokenize,
      fun more point others => isRun.append_point point others⟩

/-- All characters of `1.5..2` belong to one token, which is the same double as that of `1.5`. -/
theorem exists_isNumeral_of_lexeme_eq_number_twoPoints :
    ⟨.number 1.5, ⟨1, 1⟩⟩ ∈ tokenize "1.5..2" ∧
      (∃ text run rest, "1.5..2".toList = text ++ run ++ rest ∧ ⟨1, 1⟩ = Place.behind text ∧
        (∀ c ∈ rest.head?, c.isDigit = false ∧ c ≠ '.') ∧ IsNumeral run 1.5) ∧
      (∃ text gap run, (ofString "1.5..2").cursor.Yields "1.5..2" ⟨.number 1.5, ⟨1, 1⟩⟩
        (ofString "1.5..2").nextToken.2.cursor text gap run ∧ IsNumeral run 1.5) ∧
      IsNumeral ['1', '.', '5'] 1.5 ∧
      Number.ofLiteral ['1', '.', '5', '.', '.', '2'] = 1.5 := by
  have isRun : IsRun ['1', '.', '5'] := ⟨⟨'1', ['.', '5'], rfl, rfl⟩, by simp⟩
  have value : Number.ofLiteral ['1', '.', '5'] = 1.5 := by decide +kernel
  obtain ⟨read, tokens, runs⟩ := exists_isNumeral_of_lexeme_eq_number
  obtain ⟨numeral, -, longer⟩ := runs ['1', '.', '5'] isRun
  have same : Number.ofLiteral ['1', '.', '5', '.', '.', '2'] = 1.5 :=
    (longer ['.', '2'] (by simp) (by simp)).2.trans value
  have token : (ofString "1.5..2").nextToken.1 =
      ⟨.number (Number.ofLiteral ['1', '.', '5', '.', '.', '2']), ⟨1, 1⟩⟩ := rfl
  rw [same] at token
  rw [value] at numeral
  have first : tokenize "1.5..2" = (ofString "1.5..2").nextToken.1 :: _ := tokens_unfinished _
  have member : ⟨.number 1.5, ⟨1, 1⟩⟩ ∈ tokenize "1.5..2" := by
    rw [first, token]
    exact List.mem_cons_self
  have reads := Reads.nextToken (ofString "1.5..2")
  rw [token] at reads
  exact ⟨member, tokens _ _ _ member rfl, read _ _ _ _ _ .start reads rfl, numeral, same⟩

end Lexer

end SmallScheme
