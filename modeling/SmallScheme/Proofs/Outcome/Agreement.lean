import SmallScheme.Outcome
import SmallScheme.Proofs.Evaluation.Rules
import SmallScheme.Proofs.Form.Depth
import SmallScheme.Proofs.Form.Lexemes
import SmallScheme.Proofs.Form.RoundTrip
import SmallScheme.Proofs.Token.Spacing

/-!
# Runs that agree

What a run comes to is settled by less than its source and its limit. One limit holds for reading
and for evaluating, but only reading ever exceeds it: the reader counts every level of a form, the
evaluator no more than these. So a run under a limit either stops at the reader or is the run
without a limit. The form that was read from a source can stand for the source: its text is read as
that form again, under every limit under which the source is read, and so has the same result. And
the spacing of tokens has no part in what they come to, since it leaves them their lexemes; only the
places of tokens are others.

## Main results

* `run_under_limit`: a limit is exceeded in reading, by depth alone, or it changes nothing.
* `ofTokens?_tokenize_text_iff_readable`: which forms are read back from their texts, and what a run
  of the text of a form comes to.
* `run_of_loosened`: runs of sources that differ in spacing.
-/

namespace SmallScheme

/-! ### Limits -/

/-- An outcome without a result, since the limit was exceeded in reading. -/
def Outcome.TooDeep (levels : Nat) (outcome : Outcome) : Prop :=
  (∃ token, outcome.form = .error (.tooDeeplyNested levels token)) ∧ outcome.result = none

/-- A `run` is `Outcome.TooDeep` exactly when `Form.ofTokens?` exceeds the limit. -/
theorem tooDeep_iff {limit : Limit} {levels : Nat} {source : String} :
    (run limit source).TooDeep levels ↔
      ∃ token, Form.ofTokens? limit (tokenize source) = .error (.tooDeeplyNested levels token) := by
  constructor
  · rintro ⟨stops, -⟩
    exact stops
  · rintro ⟨token, stops⟩
    exact ⟨⟨token, stops⟩, by simp only [run, stops]⟩

/-- A `run` has a result only if a form was read, and then the result is that of `Form.eval`. -/
theorem exists_form_of_run_result {limit : Limit} {source : String}
    {result : Except EvalError Value} (h : (run limit source).result = some result) :
    ∃ form, Form.ofTokens? limit (tokenize source) = .ok (some form) ∧
      form.eval limit .program = result := by
  simp only [run] at h
  split at h
  · next form isRead =>
    cases h
    exact ⟨form, isRead, rfl⟩
  · cases h

/-- A limit under which `Form.ofTokens?` reads a form leaves room for the depth of the form. -/
theorem allows_of_ofTokens? {limit : Limit} {tokens : List Token} {form : Form}
    (h : Form.ofTokens? limit tokens = .ok (some form)) : limit.Allows 0 form.depth := by
  cases limit with
  | none => exact Limit.allows_none 0 form.depth
  | some levels => exact Limit.allows_some.2 (by have := Form.depth_le_of_ofTokens? h; omega)

/-- A `run` is the same under two limits if `Form.ofTokens?` reads the same under them. -/
theorem run_eq_of_ofTokens?_eq {limit limit' : Limit} {source : String}
    (same : Form.ofTokens? limit (tokenize source) = Form.ofTokens? limit' (tokenize source)) :
    run limit source = run limit' source := by
  simp only [run, same]
  split
  · next form isRead =>
    have room : Limit.Allows limit 0 form.depth := allows_of_ofTokens? (same.trans isRead)
    have room' : Limit.Allows limit' 0 form.depth := allows_of_ofTokens? isRead
    have sameResult : form.eval limit .program = form.eval limit' .program :=
      Form.evalAt_of_allows .program form room room'
    rw [sameResult]
  · rfl

/-- **A limit is all or nothing for a whole `run`.** Either it is exceeded in reading, and then
nothing is evaluated, or it changes nothing; evaluation itself never exceeds it. If `Form.ofTokens?`
reads a form from the source without the limit, the limit is exceeded if and only if the form is
deeper. -/
theorem run_under_limit (levels : Nat) (source : String) :
    ((run (some levels) source).TooDeep levels ∨ run (some levels) source = run none source) ∧
      (∀ limit exceeded,
        (run limit source).result ≠ some (.error (.recursionLimit exceeded))) ∧
      ∀ form, Form.ofTokens? none (tokenize source) = .ok (some form) →
        ((run (some levels) source).TooDeep levels ↔ levels < form.depth) := by
  refine ⟨?_, ?_, ?_⟩
  · rcases Form.ofTokens?_limit levels (tokenize source) with same | stops
    · exact Or.inr (run_eq_of_ofTokens?_eq same)
    · exact Or.inl (tooDeep_iff.2 stops)
  · intro limit exceeded isResult
    obtain ⟨form, isRead, fails⟩ := exists_form_of_run_result isResult
    exact Form.evalAt_ne_recursionLimit .program form (allows_of_ofTokens? isRead) exceeded fails
  · intro form isRead
    exact tooDeep_iff.trans (Form.ofTokens?_tooDeep_iff isRead)

/-- A list in a list has three levels with the atom in it: a limit of two is exceeded in reading it,
and a limit of three changes nothing. -/
theorem run_under_limit_nested :
    Form.ofTokens? none (tokenize "((1))") = .ok (some (.list [.list [.number 1]])) ∧
      (run (some 2) "((1))").TooDeep 2 ∧ run (some 3) "((1))" = run none "((1))" := by
  have readable : (Form.list [.list [.number 1]]).Readable :=
    .list (List.forall_mem_singleton.2 (.list (List.forall_mem_singleton.2 (.number rfl rfl))))
  have text : (Form.list [.list [.number 1]]).text = "((1))" := by decide +kernel
  have isRead := readable.ofTokens?_text (Limit.allows_none 0 _)
  rw [text] at isRead
  obtain ⟨-, -, deeper⟩ := run_under_limit 2 "((1))"
  obtain ⟨either, -, deeper'⟩ := run_under_limit 3 "((1))"
  refine ⟨isRead, (deeper _ isRead).2 (by decide), either.resolve_left fun tooDeep => ?_⟩
  exact absurd ((deeper' _ isRead).1 tooDeep) (by decide)

/-! ### Texts of forms -/

/-- The text of a form that was read from a source is read as the source is, under the same
limit. -/
theorem ofTokens?_text_of_ofTokens? {limit : Limit} {source : String} {form : Form}
    (h : Form.ofTokens? limit (tokenize source) = .ok (some form)) :
    Form.ofTokens? limit (tokenize form.text) = Form.ofTokens? limit (tokenize source) := by
  rw [h]
  exact (Form.readable_of_ofTokens? h).ofTokens?_text (allows_of_ofTokens? h)

/-- **Exactly the readable forms are read back from their `Form.text`**, and only readable forms are
read from a source. So a `run` of the text of the form that a source has gives that form and its
value, as the `run` of the source does, under any limit under which the source has a form. -/
theorem ofTokens?_tokenize_text_iff_readable :
    (∀ form : Form, Form.ofTokens? none (tokenize form.text) = .ok (some form) ↔ form.Readable) ∧
      (∀ (source : String) (form : Form),
        Form.ofTokens? none (tokenize source) = .ok (some form) → form.Readable) ∧
      ∀ (source : String) (form : Form),
        Form.ofTokens? none (tokenize source) = .ok (some form) →
        ∀ limit read, Form.ofTokens? limit (tokenize source) = .ok (some read) →
          (run limit form.text).form = .ok (some form) ∧
            (run limit source).form = .ok (some form) ∧
            (run limit form.text).result = (run limit source).result ∧
            (run limit source).result = some (form.eval limit .program) := by
  refine ⟨fun form => ?_, fun _ _ => Form.readable_of_ofTokens?, ?_⟩
  · constructor
    · exact Form.readable_of_ofTokens?
    · exact fun readable => readable.ofTokens?_text (Limit.allows_none 0 form.depth)
  · intro source form isRead limit read limited
    have unlimited := Form.ofTokens?_none_of_limit limited
    obtain rfl : read = form := by simpa using unlimited.symm.trans isRead
    have same := ofTokens?_text_of_ofTokens? limited
    exact ⟨same.trans limited, limited, by simp only [run, same], by simp only [run, limited]⟩

/-! ### Spacing -/

/-- Sources whose tokens are read `Form.Alike` have the same result of a `run`. -/
theorem run_result_of_alike {limit : Limit} {source source' : String} {tokens tokens' : List Token}
    (alike : Form.Alike tokens tokens' (Form.ofTokens? limit (tokenize source))
      (Form.ofTokens? limit (tokenize source'))) :
    (run limit source').result = (run limit source).result := by
  simp only [run]
  generalize Form.ofTokens? limit (tokenize source) = outcome at alike ⊢
  generalize Form.ofTokens? limit (tokenize source') = outcome' at alike ⊢
  cases alike with
  | ok => rfl
  | error _ _ _ => rfl

/-- **Spacing has no part in what a source comes to.** A source and one that it is `Loosened` to, in
any number of steps, have tokens of the same lexemes in the same order. Under every limit the same
form is read from both, or none, or the same error is found in both at the token of the same number,
and the result of evaluation is the same. -/
theorem run_of_loosened {source source' : String}
    (loosened : Relation.ReflTransGen Loosened source source') :
    (tokenize source').map Token.lexeme = (tokenize source).map Token.lexeme ∧
      ∀ limit,
        Form.Alike (tokenize source) (tokenize source') (run limit source).form
          (run limit source').form ∧
        (run limit source').result = (run limit source).result := by
  have same := map_lexeme_tokenize_of_loosened loosened
  have ended : ∃ token ∈ tokenize source, token.lexeme = .endOfInput := by
    obtain ⟨inner, whole, -⟩ := exists_tokenize_eq source
    rw [whole]
    exact ⟨_, List.mem_append_right inner List.mem_cons_self, rfl⟩
  refine ⟨same, fun limit => ?_⟩
  have alike := Form.alike_of_map_lexeme_eq limit ended same
  exact ⟨alike, run_result_of_alike alike⟩

/-- A comment between a number and a word that follows it without a gap: the list around them is
not closed in either case, and that is found at the end of another line. -/
theorem run_of_loosened_unclosed :
    Loosened "(12abc" "(12 ;x\nabc" ∧
      (tokenize "(12 ;x\nabc").map Token.lexeme = (tokenize "(12abc").map Token.lexeme ∧
      Form.Alike (tokenize "(12abc") (tokenize "(12 ;x\nabc") (run (some 2) "(12abc").form
        (run (some 2) "(12 ;x\nabc").form ∧
      (run (some 2) "(12 ;x\nabc").result = (run (some 2) "(12abc").result := by
  have number : IsPiece ['1', '2'] ['a', 'b', 'c'] (.number (.ofLiteral ['1', '2'])) :=
    isPiece_number (by decide) ['2', 'a', 'b', 'c']
  have solid : IsSolid ['a', 'b', 'c'] := by
    intro c isHead
    obtain rfl : 'a' = c := by simpa using isHead
    decide
  have word : IsPiece ['a', 'b', 'c'] [] (.ofPiece ['a', 'b', 'c']) :=
    isPiece_piece solid (List.cons_ne_nil 'a' ['b', 'c'])
  have laid : Laid (['(', '1', '2'] ++ ['a', 'b', 'c'])
      ([⟨[], ['('], .leftParen⟩] ++ ⟨[], ['1', '2'], .number (.ofLiteral ['1', '2'])⟩ ::
        [⟨[], ['a', 'b', 'c'], .ofPiece ['a', 'b', 'c']⟩]) [] :=
    .part .nil .leftParen (.part .nil number (.part .nil word (.last .nil)))
  have noString : ¬ ∃ inside, ['1', '2'] = '"' :: inside ∧ '"' ∉ inside := by simp
  have parted : Parted ['(', '1', '2'] ['a', 'b', 'c'] := .behind laid noString rfl
  have noLineFeed : '\n' ∉ ['x'] := by decide
  have spacing : IsSpacing [';', 'x', '\n'] := .comment noLineFeed .nil
  have loosened : Loosened "(12abc" "(12 ;x\nabc" :=
    ⟨['(', '1', '2'], ['a', 'b', 'c'], ' ', [';', 'x', '\n'], parted, by decide, spacing, rfl, rfl⟩
  obtain ⟨lexemes, runs⟩ := run_of_loosened (.single loosened)
  exact ⟨loosened, lexemes, runs (some 2)⟩

end SmallScheme
