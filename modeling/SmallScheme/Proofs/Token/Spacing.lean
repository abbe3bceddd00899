import Mathlib.Logic.Relation
import SmallScheme.Proofs.Token.Concatenation

/-!
# Spacing

Between the tokens of a source there may be any text of blanks and comments. Such a text can also
be put where there was none, directly before a token or directly behind it (`Parted`): if it begins
with a blank and its comments are closed by line feeds, every token stays what it is. Only a string
that is not closed takes in what is put behind it.

## Main results

* `Parted.spells`: a source spells the same lexemes with spacing put between its tokens.
* `map_lexeme_tokenize_of_loosened`: the tokens of a source keep their lexemes with spacing put
  between them, any number of times.
-/

namespace SmallScheme

/-! ### Texts between tokens -/

/-- Whether a text is spacing: blanks and comments that are closed by a line feed. -/
inductive IsSpacing : List Char → Prop
  | nil : IsSpacing []
  | blank {c : Char} {text : List Char} :
      Text.isBlank c = true → IsSpacing text → IsSpacing (c :: text)
  | comment {body text : List Char} :
      '\n' ∉ body → IsSpacing text → IsSpacing (';' :: body ++ '\n' :: text)

variable {text g rest : List Char} {w : Char}

/-- Spacing in front of a gap makes a longer gap. -/
theorem IsSpacing.isGap_append (h : IsSpacing text) (isGap : IsGap g rest) :
    IsGap (text ++ g) rest := by
  induction h with
  | nil => exact isGap
  | blank blank _ ih => exact .blank blank ih
  | @comment body text inside _ ih =>
      have further : IsGap ('\n' :: (text ++ g)) rest := .blank isBlank_lineFeed ih
      rw [List.append_assoc]
      exact .comment inside (by simp) further

/-- Spacing is a gap, whatever follows it. -/
theorem IsSpacing.isGap (h : IsSpacing text) (rest : List Char) : IsGap text rest := by
  have isGap := h.isGap_append (.nil : IsGap [] rest)
  rwa [List.append_nil] at isGap

/-- A comment at the end of a source, and spacing behind it, are a gap. -/
theorem IsSpacing.isGap_comment (h : IsSpacing text) {body : List Char} (inside : '\n' ∉ body) :
    IsGap (';' :: body ++ text) [] := by
  induction h generalizing body with
  | nil => exact .comment inside (by simp) .nil
  | @blank c text blank spacing ih =>
      have rest := spacing.isGap []
      by_cases lineFeed : c = '\n'
      · subst lineFeed
        exact .comment inside (by simp) (.blank blank rest)
      · have further : '\n' ∉ body ++ [c] := by
          rw [List.mem_append, List.mem_singleton]
          rintro (member | rfl)
          · exact inside member
          · exact lineFeed rfl
        rw [List.append_cons]
        exact ih further
  | @comment body' text inside' spacing ih =>
      have rest := spacing.isGap []
      have further : '\n' ∉ body ++ ';' :: body' := by
        rw [List.mem_append, List.mem_cons]
        rintro (member | isFeed | member)
        · exact inside member
        · exact absurd isFeed (by decide)
        · exact inside' member
      have whole := IsGap.comment further (by simp) (IsGap.blank isBlank_lineFeed rest)
      simpa using whole

/-- A gap in front of a piece can be continued by another gap. -/
theorem IsGap.append (h : IsGap g rest) (solid : IsSolid rest) (nonempty : rest ≠ [])
    {g' rest' : List Char} (isGap : IsGap g' rest') : IsGap (g ++ g') rest' := by
  induction h with
  | nil => exact isGap
  | blank blank _ ih => exact .blank blank (ih solid nonempty)
  | @comment body g rest inside stop _ ih =>
      rw [List.append_assoc]
      refine .comment inside ?_ (ih solid nonempty)
      cases g with
      | nil =>
          -- a piece cannot begin with the line feed that the comment ends before
          obtain ⟨c, rest, rfl⟩ := List.exists_cons_of_ne_nil nonempty
          obtain ⟨notBlank, -⟩ := solid c rfl
          obtain rfl : c = '\n' := stop c rfl
          rw [isBlank_lineFeed] at notBlank
          cases notBlank
      | cons first g => simpa using stop

/-- A gap at the end of a source can be continued by spacing. -/
theorem IsGap.append_spacing (h : IsGap g []) (spacing : IsSpacing text) :
    IsGap (g ++ text) [] := by
  generalize atEnd : ([] : List Char) = rest at h
  induction h with
  | nil =>
      subst atEnd
      exact spacing.isGap []
  | blank blank _ ih => exact .blank blank (ih atEnd)
  | @comment body g rest inside stop _ ih =>
      subst atEnd
      rw [List.append_assoc]
      cases g with
      | nil => exact spacing.isGap_comment inside
      | cons first g => exact .comment inside (by simpa using stop) (ih rfl)

/-! ### Places between tokens -/

/-- Whether a source is parted directly before or directly behind one of its tokens, the end of
input among them. There is no such place behind a string that is not closed. -/
inductive Parted : (front back : List Char) → Prop
  | before {front back gap piece last : List Char} {lexeme : Lexeme} {parts others : List Part} :
      Laid (front ++ back) (parts ++ ⟨gap, piece, lexeme⟩ :: others) last →
      front = parts.flatMap Part.chars ++ gap → Parted front back
  | behind {front back gap piece last : List Char} {lexeme : Lexeme} {parts others : List Part} :
      Laid (front ++ back) (parts ++ ⟨gap, piece, lexeme⟩ :: others) last →
      (¬ ∃ inside, piece = '"' :: inside ∧ '"' ∉ inside) →
      front = parts.flatMap Part.chars ++ (gap ++ piece) → Parted front back
  | atEnd {front : List Char} : ¬ EndsInString front → Parted front []

variable {front back cs last : List Char} {parts others : List Part}

/-- A source whose last part is not an open string does not end inside a string. -/
theorem not_endsInString_of_closed {gap piece : List Char} {lexeme : Lexeme}
    (laid : Laid cs (parts ++ [⟨gap, piece, lexeme⟩]) last)
    (closed : ¬ ∃ inside, piece = '"' :: inside ∧ '"' ∉ inside) : ¬ EndsInString cs := by
  rintro ⟨before, gap', inside, lexeme', last', laid', noQuote⟩
  obtain ⟨same, -⟩ := laid.unique laid'
  obtain ⟨-, lastPart⟩ := List.append_inj' same rfl
  obtain ⟨samePart, -⟩ := List.cons.inj lastPart
  obtain ⟨-, isPiece, -⟩ := Part.mk.inj samePart
  exact closed ⟨inside, isPiece.symm, noQuote⟩

section

variable {gap piece : List Char} {lexeme : Lexeme}

/-- Spacing that begins with a blank, put directly before a piece, makes its gap longer and leaves
all other parts as they are. -/
theorem Laid.space_before
    (laid : Laid (front ++ back) (parts ++ ⟨gap, piece, lexeme⟩ :: others) last)
    (isFront : front = parts.flatMap Part.chars ++ gap) (blank : Text.isBlank w = true)
    (spacing : IsSpacing text) :
    Laid (front ++ (w :: text ++ back))
      (parts ++ ⟨gap ++ w :: text, piece, lexeme⟩ :: others) last := by
  obtain ⟨behind, split, laidBehind, replaced⟩ := laid.replace
  rw [isFront, List.append_assoc] at split
  obtain isBehind : gap ++ back = behind := List.append_cancel_left split
  cases laidBehind with
  | @part _ _ rest _ _ _ isGap isPiece laidRest =>
      obtain rfl : back = piece ++ rest := List.append_cancel_left isBehind
      obtain ⟨solid, nonempty⟩ := isPiece.isSolid
      have isGap' : IsGap (gap ++ w :: text) (piece ++ rest) := by
        have inFront := (IsSpacing.blank blank spacing).isGap (piece ++ rest)
        exact isGap.append solid nonempty inFront
      have begins : ∀ c ∈ (gap ++ w :: text ++ (piece ++ rest)).head?,
          c ∈ (gap ++ (piece ++ rest)).head? ∨ Text.isBlank c = true := by
        intro c isHead
        cases gap with
        | nil =>
            obtain rfl : w = c := by simpa using isHead
            exact Or.inr blank
        | cons first gap => exact Or.inl isHead
      have more : gap ++ (piece ++ rest) ≠ [] := List.append_ne_nil_of_right_ne_nil gap nonempty
      have laid' := replaced _ _ _ (absurd · more) begins (.part isGap' isPiece laidRest)
      rw [isFront, List.append_assoc, ← List.append_assoc gap]
      exact laid'

/-- Spacing that begins with a blank, put directly behind a piece that is not an open string, leaves
the parts up to there as they are and does not change the lexemes of the others. -/
theorem Laid.space_behind
    (laid : Laid (front ++ back) (parts ++ ⟨gap, piece, lexeme⟩ :: others) last)
    (closed : ¬ ∃ inside, piece = '"' :: inside ∧ '"' ∉ inside)
    (isFront : front = parts.flatMap Part.chars ++ (gap ++ piece))
    (blank : Text.isBlank w = true) (spacing : IsSpacing text) :
    ∃ others' last', Laid (front ++ (w :: text ++ back))
        (parts ++ ⟨gap, piece, lexeme⟩ :: others') last' ∧
      others'.map Part.lexeme = others.map Part.lexeme := by
  have isFront' : (parts ++ [⟨gap, piece, lexeme⟩] : List Part).flatMap Part.chars = front := by
    rw [isFront, List.flatMap_append, List.flatMap_singleton, Part.chars]
  rw [List.append_cons] at laid
  obtain ⟨behind, split, laidBehind, replaced⟩ := laid.replace
  rw [isFront'] at split replaced
  obtain rfl : back = behind := List.append_cancel_left split
  have ended : back = [] → ¬ EndsInString (front ++ back) := by
    rintro rfl
    obtain ⟨rfl, -⟩ : [] = others ∧ [] = last := laidBehind.unique (.last .nil)
    rw [List.append_nil (parts ++ _)] at laid
    exact not_endsInString_of_closed laid closed
  have further : ∀ g rest, IsGap g rest → IsGap (w :: text ++ g) rest :=
    fun _ _ => (IsSpacing.blank blank spacing).isGap_append
  obtain ⟨others', last', laidOthers, tokens⟩ := laidBehind.gap_append further
  have laid' := replaced _ _ _ ended (by simp [blank]) laidOthers
  rw [← List.append_cons] at laid'
  refine ⟨others', last', laid', ?_⟩
  rw [← Part.map_lexeme_tokens .start, tokens, Part.map_lexeme_tokens]

end

/-- **A source spells the same lexemes with spacing put between its tokens** that begins with a
blank. -/
theorem Parted.spells {ls : List Lexeme} (h : Parted front back) (blank : Text.isBlank w = true)
    (spacing : IsSpacing text) (spelled : Spells (front ++ back) ls) :
    Spells (front ++ (w :: text ++ back)) ls := by
  obtain ⟨known, _, laidKnown, rfl⟩ := spelled
  cases h with
  | before laid isFront =>
      obtain ⟨rfl, -⟩ := laid.unique laidKnown
      have laid' := laid.space_before isFront blank spacing
      refine ⟨_, _, laid', ?_⟩
      rw [List.map_append, List.map_append, List.map_cons, List.map_cons]
  | behind laid closed isFront =>
      obtain ⟨rfl, -⟩ := laid.unique laidKnown
      obtain ⟨others', last', laid', same⟩ := laid.space_behind closed isFront blank spacing
      refine ⟨_, _, laid', ?_⟩
      rw [List.map_append, List.map_append, List.map_cons, List.map_cons, same]
  | atEnd closed =>
      rw [List.append_nil] at laidKnown ⊢
      have gap := laidKnown.isGap_last.append_spacing (.blank blank spacing)
      have extended := laidKnown.append closed (by simpa using blank) (.last gap)
      rw [List.append_nil] at extended
      exact ⟨_, _, extended, rfl⟩

/-! ### Loosening -/

/-- Whether a source becomes another one by a text put directly before or directly behind one of
its tokens: a blank, and then any blanks and comments that are closed. -/
def Loosened (source source' : String) : Prop :=
  ∃ front back w text, Parted front back ∧ Text.isBlank w = true ∧ IsSpacing text ∧
    source.toList = front ++ back ∧ source'.toList = front ++ (w :: text ++ back)

/-- **`tokenize` finds the same lexemes in the same order in a source and in one that it is
`Loosened` to**, in any number of steps. -/
theorem map_lexeme_tokenize_of_loosened {source source' : String}
    (loosened : Relation.ReflTransGen Loosened source source') :
    (tokenize source').map Token.lexeme = (tokenize source).map Token.lexeme := by
  induction loosened with
  | refl => rfl
  | @tail source₁ source₂ _ step ih =>
      obtain ⟨front, back, w, text, parted, blank, spacing, whole, whole'⟩ := step
      obtain ⟨parts, last, laid⟩ := exists_laid source₁.toList
      have spelled : Spells source₁.toList (parts.map Part.lexeme) := ⟨parts, last, laid, rfl⟩
      rw [whole] at spelled
      have spelled' := parted.spells blank spacing spelled
      rw [← whole'] at spelled'
      rw [spelled'.map_lexeme_tokenize, ← ih, laid.map_lexeme_tokenize]

end SmallScheme
