import SmallScheme.Outcome
import SmallScheme.Proofs.Form.Lexemes
import SmallScheme.Proofs.Form.RoundTrip
import SmallScheme.Proofs.Value.Equality

/-!
# Equal outcomes

Two runs of one source have the same outcome, and yet the outcomes need not compare as equal: an
outcome differs from itself if it holds not-a-number. No token of a source is not-a-number, so that
it occurs neither in the form that is read from the tokens nor in the token of a read error. Only
evaluation makes it, and so only the value of a run decides.

## Main results

* `Outcome.beq_self_iff`: which outcomes are equal to themselves.
* `apply_equal_self_iff_not_holdsNaN`: `=` on values, and `==` on the outcomes of runs.
-/

namespace SmallScheme

/-! ### Lexemes, tokens and errors -/

/-- Whether a lexeme is not-a-number. -/
def Lexeme.HoldsNaN (l : Lexeme) : Prop :=
  ∃ x : Number, x.isNaN = true ∧ l = .number x

/-- A lexeme is equal to itself unless it is not-a-number. -/
theorem Lexeme.beq_self_iff {l : Lexeme} : (l == l) = true ↔ ¬ l.HoldsNaN := by
  cases l with
  | number x =>
      change (x == x) = true ↔ _
      rw [Number.beq_self_iff]
      simp only [HoldsNaN, number.injEq, exists_eq_right']
  | leftParen => exact iff_of_true rfl (by simp [HoldsNaN])
  | rightParen => exact iff_of_true rfl (by simp [HoldsNaN])
  | quote => exact iff_of_true rfl (by simp [HoldsNaN])
  | endOfInput => exact iff_of_true rfl (by simp [HoldsNaN])
  | string s => exact iff_of_true (beq_self_eq_true s) (by simp [HoldsNaN])
  | boolean b => exact iff_of_true (beq_self_eq_true b) (by simp [HoldsNaN])
  | symbol name => exact iff_of_true (beq_self_eq_true name) (by simp [HoldsNaN])

/-- No readable lexeme is not-a-number. -/
theorem Lexeme.Readable.not_holdsNaN {l : Lexeme} (readable : l.Readable) : ¬ l.HoldsNaN := by
  rintro ⟨x, isNaN, rfl⟩
  obtain ⟨defined, -⟩ := readable
  rw [defined] at isNaN
  cases isNaN

/-- A token is equal to itself unless its lexeme is not-a-number. -/
theorem Token.beq_self_iff {t : Token} : (t == t) = true ↔ ¬ t.lexeme.HoldsNaN := by
  rw [← Lexeme.beq_self_iff]
  change (t.lexeme == t.lexeme && t.place == t.place) = true ↔ _
  simp

/-- A read error is equal to itself unless the lexeme of its token is not-a-number. -/
theorem ReadError.beq_self_iff {e : ReadError} : (e == e) = true ↔ ¬ e.token.lexeme.HoldsNaN := by
  rw [← Token.beq_self_iff]
  cases e with
  | unclosedParenthesis token => exact Iff.rfl
  | unexpectedEndOfInput token => exact Iff.rfl
  | unexpectedToken token => exact Iff.rfl
  | tokenMismatch expected token =>
      change (expected == expected && token == token) = true ↔ (token == token) = true
      simp
  | tooDeeplyNested limit token =>
      change (limit == limit && token == token) = true ↔ (token == token) = true
      simp

/-- A list is equal to itself exactly when each of its items is. -/
theorem list_beq_self_iff {α : Type} [BEq α] {xs : List α} :
    (xs == xs) = true ↔ ∀ x ∈ xs, (x == x) = true := by
  induction xs with
  | nil => simp
  | cons x xs ih => rw [List.cons_beq_cons, Bool.and_eq_true, ih, List.forall_mem_cons]

/-! ### Outcomes -/

namespace Outcome

/-- `sameResult` relates a result to itself exactly when its value or its error is equal to
itself. -/
theorem sameResult_self_iff {ε α : Type} [BEq ε] [BEq α] {r : Except ε α} :
    sameResult r r = true ↔
      (∀ a, r = .ok a → (a == a) = true) ∧ ∀ e, r = .error e → (e == e) = true := by
  cases r with
  | ok a => simp [sameResult]
  | error e => simp [sameResult]

/-- An outcome is equal to itself exactly when its tokens, its form and its result are. -/
theorem beq_self_iff_parts {o : Outcome} :
    (o == o) = true ↔
      (o.tokens == o.tokens) = true ∧ sameResult o.form o.form = true ∧
        ∀ r, o.result = some r → sameResult r r = true := by
  change (o.tokens == o.tokens && sameResult o.form o.form && _) = true ↔ _
  rw [Bool.and_eq_true, Bool.and_eq_true, and_assoc]
  cases o.result with
  | none => simp
  | some r => simp

/-- **An outcome is equal to itself unless it holds not-a-number**: in a token, in the form, in the
token of a read error or in the value. -/
theorem beq_self_iff {o : Outcome} :
    (o == o) = true ↔
      (∀ token ∈ o.tokens, ¬ token.lexeme.HoldsNaN) ∧
      (∀ form, o.form = .ok (some form) → ¬ form.HoldsNaN) ∧
      (∀ e, o.form = .error e → ¬ e.token.lexeme.HoldsNaN) ∧
      ∀ value, o.result = some (.ok value) → ¬ value.HoldsNaN := by
  have forms : (∀ found, o.form = .ok found → (found == found) = true) ↔
      ∀ form, o.form = .ok (some form) → ¬ form.HoldsNaN := by
    constructor
    · intro each form isForm
      exact Form.beq_self_iff.1 (each (some form) isForm)
    · intro each found isFound
      cases found with
      | none => rfl
      | some form => exact Form.beq_self_iff.2 (each form isFound)
  have results : (∀ r, o.result = some r → sameResult r r = true) ↔
      ∀ value, o.result = some (.ok value) → ¬ value.HoldsNaN := by
    constructor
    · intro each value isValue
      exact Value.beq_self_iff.1 ((sameResult_self_iff.1 (each _ isValue)).1 value rfl)
    · intro each r isResult
      cases r with
      | ok value => exact Value.beq_self_iff.2 (each value isResult)
      | error e => exact beq_self_eq_true e
  rw [beq_self_iff_parts, list_beq_self_iff, sameResult_self_iff, forms, results, and_assoc]
  simp only [Token.beq_self_iff, ReadError.beq_self_iff]

end Outcome

/-! ### Runs -/

variable {limit : Limit} {source : String}

/-- No token of `tokenize` is not-a-number. -/
theorem not_holdsNaN_of_mem_tokenize {token : Token} (member : token ∈ tokenize source) :
    ¬ token.lexeme.HoldsNaN :=
  (Form.readable_of_mem_tokenize (List.mem_map_of_mem member)).not_holdsNaN

/-- No read error of `Form.ofTokens?` on a source reports a token that is not-a-number. -/
theorem not_holdsNaN_of_fails {e : ReadError}
    (fails : Form.ofTokens? limit (tokenize source) = .error e) : ¬ e.token.lexeme.HoldsNaN := by
  rcases Form.token_of_ofTokens? fails with member | isEnd
  · exact not_holdsNaN_of_mem_tokenize member
  · rw [isEnd]
    rintro ⟨x, -, ⟨⟩⟩

/-- Not-a-number is in no token of a `run`, in no form that it reads and in no read error. -/
theorem not_holdsNaN_of_run (limit : Limit) (source : String) :
    (∀ token ∈ (run limit source).tokens, ¬ token.lexeme.HoldsNaN) ∧
      (∀ form, (run limit source).form = .ok (some form) → ¬ form.HoldsNaN) ∧
      ∀ e, (run limit source).form = .error e → ¬ e.token.lexeme.HoldsNaN :=
  ⟨fun _ => not_holdsNaN_of_mem_tokenize,
    fun _ isRead => (Form.readable_of_ofTokens? isRead).not_holdsNaN,
    fun _ => not_holdsNaN_of_fails⟩

/-- **A `run` is equal to itself, by `==`, unless its value holds not-a-number.** -/
theorem run_beq_self_iff (limit : Limit) (source : String) :
    (run limit source == run limit source) = true ↔
      ¬ ∃ value, (run limit source).result = some (.ok value) ∧ value.HoldsNaN := by
  rw [Outcome.beq_self_iff]
  push Not
  obtain ⟨tokens, forms, errors⟩ := not_holdsNaN_of_run limit source
  constructor
  · rintro ⟨-, -, -, values⟩
    exact values
  · intro values
    exact ⟨tokens, forms, errors, values⟩

/-- **Equality is by content, but for not-a-number.** On all values, `=` has an answer that does not
depend on the order of its arguments, and it is transitive; a value is equal to itself exactly if it
does not hold not-a-number, and a form is not equal to a value of any other kind. Outcomes of a
`run` of one source under one limit are equal exactly if there is no value with not-a-number in it,
since tokens, forms and errors never hold it. -/
theorem apply_equal_self_iff_not_holdsNaN :
    (∀ v w : Value, ∃ b, Procedure.equal.apply [v, w] = .ok (.boolean b) ∧
        Procedure.equal.apply [w, v] = .ok (.boolean b)) ∧
      (∀ u v w : Value, Procedure.equal.apply [u, v] = .ok (.boolean true) →
        Procedure.equal.apply [v, w] = .ok (.boolean true) →
        Procedure.equal.apply [u, w] = .ok (.boolean true)) ∧
      (∀ v : Value, Procedure.equal.apply [v, v] = .ok (.boolean true) ↔ ¬ v.HoldsNaN) ∧
      (∀ (f : Form) (v : Value), (∀ g, v ≠ .form g) →
        Procedure.equal.apply [.form f, v] = .ok (.boolean false) ∧
          Procedure.equal.apply [v, .form f] = .ok (.boolean false)) ∧
      ∀ (limit : Limit) (source : String),
        ((run limit source == run limit source) = true ↔
          ¬ ∃ value, (run limit source).result = some (.ok value) ∧ value.HoldsNaN) ∧
        (∀ token ∈ (run limit source).tokens, ¬ token.lexeme.HoldsNaN) ∧
        (∀ form, (run limit source).form = .ok (some form) → ¬ form.HoldsNaN) ∧
        ∀ e, (run limit source).form = .error e → ¬ e.token.lexeme.HoldsNaN := by
  have answers (v w : Value) : Procedure.equal.apply [v, w] = .ok (.boolean (v == w)) := rfl
  have answersTrue (v w : Value) :
      Procedure.equal.apply [v, w] = .ok (.boolean true) ↔ (v == w) = true := by
    rw [answers, Except.ok.injEq, Value.boolean.injEq]
  refine ⟨fun v w => ⟨v == w, answers v w, ?_⟩, fun u v w => ?_, fun v => ?_, fun f v other => ?_,
    fun limit source => ⟨run_beq_self_iff limit source, not_holdsNaN_of_run limit source⟩⟩
  · rw [answers, BEq.comm]
  · rw [answersTrue, answersTrue, answersTrue]
    exact BEq.trans
  · rw [answersTrue, Value.beq_self_iff]
  · rw [answers, answers, BEq.comm (a := v), Value.form_beq_eq_false other]
    exact ⟨rfl, rfl⟩

/-- The call that divides zero by itself. -/
def zeroByZero : Form :=
  .list [.symbol "/", .number 0, .number 0]

/-- The text of `zeroByZero` is read like any other, but its outcome differs from itself, and so
does a list with its value. A form without not-a-number is equal to itself. A zero of one sign is
equal to that of the other and through it to itself, but not to the form that spells it. -/
theorem apply_equal_self_iff_not_holdsNaN_zeroByZero :
    (run none zeroByZero.text).result = some (.ok (.number (0 / 0))) ∧
      ¬ (run none zeroByZero.text == run none zeroByZero.text) = true ∧
      Procedure.equal.apply [.list [.number (0 / 0)], .list [.number (0 / 0)]] ≠
        .ok (.boolean true) ∧
      Procedure.equal.apply [.form (.quote (.number 0)), .form (.quote (.number 0))] =
        .ok (.boolean true) ∧
      Procedure.equal.apply [.number 0, .number (-0)] = .ok (.boolean true) ∧
      Procedure.equal.apply [.number 0, .number 0] = .ok (.boolean true) ∧
      Procedure.equal.apply [.form (.number 0), .number 0] = .ok (.boolean false) := by
  obtain ⟨-, transitive, self, forms, runs⟩ := apply_equal_self_iff_not_holdsNaN
  have undefined : (Value.number (0 / 0)).HoldsNaN := Or.inl ⟨0 / 0, rfl, .refl _⟩
  have solid : Text.isBlank '/' = false := by decide
  have slash : IsName "/".toList := ⟨by decide, by simp, by simpa using solid, by decide, by decide⟩
  have zero : (Form.number 0).Readable := .number rfl rfl
  have readable : zeroByZero.Readable := by
    refine .list fun item member => ?_
    rcases List.mem_cons.1 member with rfl | others
    · exact .symbol slash
    · obtain rfl : item = .number 0 := by simpa using others
      exact zero
  have result : (run none zeroByZero.text).result = some (.ok (.number (0 / 0))) := by
    simp only [run, readable.ofTokens?_text (Limit.allows_none 0 _)]
    rfl
  refine ⟨result, fun same => ?_, fun same => ?_, ?_, rfl, ?_, ?_⟩
  · exact (runs none zeroByZero.text).1.1 same ⟨_, result, undefined⟩
  · exact (self _).1 same (Value.holdsNaN_list.2 ⟨_, List.mem_singleton_self _, undefined⟩)
  · refine (self _).2 fun holds => ?_
    rcases (Value.holdsNaN_iff_of_not_list (by simp)).1 holds with ⟨x, -, ⟨⟩⟩ | ⟨f, inside, same⟩
    cases same
    exact zero.quote.not_holdsNaN inside
  · exact transitive (.number 0) (.number (-0)) (.number 0) rfl rfl
  · exact (forms (.number 0) (.number 0) (by simp)).1

end SmallScheme
