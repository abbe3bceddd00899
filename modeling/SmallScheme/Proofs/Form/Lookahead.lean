import SmallScheme.Proofs.Form.Passage
import SmallScheme.Proofs.Token.Places

/-!
# How far a reader looks

A reader takes tokens up to the one that decides what it reads, and sometimes one more: behind a
complete form and behind a token that it refuses. So how many tokens it takes shows in what it
reads (`Form.Taken`), and all that comes later may as well be different. Over a lexer these are
the tokens that are not read again, whatever was done with the lexer before.

## Main results

* `Form.exists_taken`: reading takes the tokens that its outcome says, and is decided by no more.
* `Form.read_lexer`: reading from a lexer, and what the lexer still holds then.
-/

namespace SmallScheme

namespace Form

open Reader

/-! ### The number of tokens taken -/

/-- Whether a token stands at an index of a sequence; one that does not belong to the sequence
stands behind it. -/
def StandsAt (tokens : List Token) (token : Token) (i : Nat) : Prop :=
  tokens[i]? = some token ∨ token ∉ tokens ∧ i = tokens.length

/-- How many tokens have been taken when reading comes to an outcome. -/
inductive Taken (tokens : List Token) : Except ReadError (Option Form) → Nat → Prop
  | nothing : Taken tokens (.ok none) 1
  | form {form : Form} : Taken tokens (.ok (some form)) (form.lexemes.length + 1)
  | unclosed {token : Token} {i : Nat} : StandsAt tokens token i →
      Taken tokens (.error (.unclosedParenthesis token)) (i + 1)
  | unquoted {token : Token} {i : Nat} : StandsAt tokens token i →
      Taken tokens (.error (.unexpectedEndOfInput token)) (i + 1)
  | tooDeep {levels : Nat} {token : Token} {i : Nat} : StandsAt tokens token i →
      Taken tokens (.error (.tooDeeplyNested levels token)) (i + 1)
  | refused {token : Token} {i : Nat} : StandsAt tokens token i →
      Taken tokens (.error (.unexpectedToken token)) (i + 2)

variable {limit : Limit} {tokens left taken rest : List Token} {opened : List Open}
  {token : Token} {outcome : Except ReadError (Option Form)}

/-- A token behind others `StandsAt` the index that is their number. -/
theorem standsAt_append (taken : List Token) (token : Token) (rest : List Token) :
    StandsAt (taken ++ token :: rest) token taken.length := by
  refine Or.inl ?_
  rw [List.getElem?_append_right (Nat.le_refl _), Nat.sub_self]
  rfl

/-- In a sequence without repetitions, a token `StandsAt` no more than one index. -/
theorem StandsAt.unique {i j : Nat} (once : tokens.Nodup) (h : StandsAt tokens token i)
    (h' : StandsAt tokens token j) : j = i := by
  rcases h with found | ⟨absent, rfl⟩
  · rcases h' with found' | ⟨absent', rfl⟩
    · obtain ⟨inside, -⟩ := List.getElem?_eq_some_iff.1 found'
      exact (List.getElem?_inj inside once).1 (found'.trans found.symm)
    · exact absurd (List.mem_of_getElem? found) absent'
  · rcases h' with found' | ⟨-, rfl⟩
    · exact absurd (List.mem_of_getElem? found') absent
    · rfl

/-- In a sequence without repetitions, an outcome determines how many tokens were `Taken`. -/
theorem Taken.unique {k l : Nat} (once : tokens.Nodup) (h : Taken tokens outcome k)
    (h' : Taken tokens outcome l) : l = k := by
  cases h with
  | nothing => cases h'; rfl
  | form => cases h'; rfl
  | unclosed at' => cases h' with | unclosed at'' => rw [at'.unique once at'']
  | unquoted at' => cases h' with | unquoted at'' => rw [at'.unique once at'']
  | tooDeep at' => cases h' with | tooDeep at'' => rw [at'.unique once at'']
  | refused at' => cases h' with | refused at'' => rw [at'.unique once at'']

/-- If an end of input `StandsAt` an index, the tokens up to it are `Taken` when `Reader.endError`
reports it. -/
theorem taken_endError {i : Nat} (stands : StandsAt tokens token i) (limit : Limit)
    (opened : List Open) : Taken tokens (.error (endError limit opened token)) (i + 1) := by
  rcases endError_cases limit opened token with same | same | ⟨levels, same⟩
  · rw [same]
    exact .unclosed stands
  · rw [same]
    exact .unquoted stands
  · rw [same]
    exact .tooDeep stands

/-! ### What decides the outcome -/

/-- Sequences that begin with the same `k` tokens begin with the same `n` tokens, if `n` is no more
than `k`. -/
theorem take_eq_of_le {others : List Token} {n k : Nat} (same : others.take k = tokens.take k)
    (fewer : n ≤ k) : others.take n = tokens.take n := by
  have front := congrArg (List.take n) same
  rwa [List.take_take, List.take_take, Nat.min_eq_left fewer] at front

/-- A sequence that agrees with another one up to the token behind the other's end is that other. -/
theorem eq_of_take_succ_length {others : List Token}
    (same : others.take (tokens.length + 1) = tokens.take (tokens.length + 1)) :
    others = tokens := by
  rw [List.take_of_length_le (Nat.le_succ tokens.length)] at same
  have length := congrArg List.length same
  rw [List.length_take] at length
  rwa [List.take_of_length_le (by omega)] at same

/-- A sequence that begins with the same tokens as another, up to a token of it, can be taken apart
at that token. -/
theorem eq_append_of_take {others : List Token}
    (same : others.take (taken.length + 1) = (taken ++ token :: rest).take (taken.length + 1)) :
    ∃ rest', others = taken ++ token :: rest' := by
  refine ⟨others.drop (taken.length + 1), ?_⟩
  have front : others.take (taken.length + 1) = taken ++ [token] := by
    rw [same, List.take_append, List.take_of_length_le (Nat.le_succ _), Nat.add_sub_cancel_left]
    rfl
  rw [List.append_cons, ← front, List.take_append_drop]

/-- The outcome of `Form.read` is the same for all sequences that agree up to the token that ends
reading. -/
theorem read_fst_congr (passes : Passes limit [] taken opened)
    (begins : taken = [] → token.lexeme ≠ .endOfInput)
    (ends : ∀ next, step limit opened token ≠ .onward next) {others : List Token}
    (same : others.take (taken.length + 1) = (taken ++ token :: rest).take (taken.length + 1)) :
    (read limit others).1 = (read limit (taken ++ token :: rest)).1 := by
  obtain ⟨rest', rfl⟩ := eq_append_of_take same
  rw [read_append passes begins, read_append passes begins]
  cases stepped : step limit opened token with
  | onward next => exact absurd stepped (ends next)
  | finished form => rfl
  | refused error => rfl
  | stopped error => rfl

theorem drop_append_cons (taken : List Token) (token : Token) (rest : List Token) (n : Nat) :
    (taken ++ token :: rest).drop (taken.length + (n + 1)) = rest.drop n := by
  rw [List.drop_append, List.drop_of_length_le (Nat.le_add_right _ _), List.nil_append,
    Nat.add_sub_cancel_left, List.drop_succ_cons]

/-- **The outcome of `Form.read` says how many tokens were `Taken`**, is decided by no more of
them, and is decided by the tokens that spell it if it is a form. -/
theorem exists_taken (result : read limit tokens = (outcome, left)) :
    ∃ k, Taken tokens outcome k ∧ left = tokens.drop k ∧
      (∀ others : List Token, others.take k = tokens.take k → (read limit others).1 = outcome) ∧
      ∀ form : Form, outcome = .ok (some form) →
        ∀ others : List Token,
          others.take form.lexemes.length = tokens.take form.lexemes.length →
          (read limit others).1 = outcome := by
  have course := course_read limit tokens
  rw [result] at course
  cases course with
  | nothing ends =>
      refine ⟨1, .nothing, rfl, fun others same => ofTokens?_eq_none_iff.2 ?_,
        fun form none => by cases none⟩
      rcases ofTokens?_eq_none_iff.1 (congrArg Prod.fst result) with rfl | ⟨place, rest, rfl⟩
      · exact Or.inl (@eq_of_take_succ_length [] others same)
      · exact Or.inr ⟨place, @eq_append_of_take [] rest (.endAt place) others same⟩
  | @complete taken rest opened token form passes stepped =>
      have properly := endsProperly_step limit opened token
      rw [stepped] at properly
      have length : form.lexemes.length = taken.length + 1 := by
        rw [← passes.lexemes_of_finished stepped, List.length_map, List.length_append,
          List.length_singleton]
      have decided (others : List Token)
          (same : others.take form.lexemes.length =
            (taken ++ token :: rest).take form.lexemes.length) :
          (read limit others).1 = .ok (some form) := by
        rw [length] at same
        rw [read_fst_congr passes (fun _ => properly) (by simp [stepped]) same, result]
      refine ⟨form.lexemes.length + 1, .form, ?_, fun others same => ?_, ?_⟩
      · rw [length, Nat.add_assoc, drop_append_cons]
      · exact decided others (take_eq_of_le same (Nat.le_succ _))
      · rintro _ ⟨⟩
        exact decided
  | @refused taken rest opened token _ passes stepped =>
      have properly := endsProperly_step limit opened token
      rw [stepped] at properly
      obtain ⟨rfl, closes, -⟩ := properly
      refine ⟨taken.length + 2, .refused (standsAt_append taken token rest), ?_,
        fun others same => ?_, fun form none => by cases none⟩
      · rw [drop_append_cons]
      · have begins : taken = [] → token.lexeme ≠ .endOfInput := by simp [closes]
        rw [read_fst_congr passes begins (by simp [stepped])
          (take_eq_of_le same (Nat.le_succ _)), result]
  | @stopped taken _ opened token _ passes begins stepped =>
      have properly := endsProperly_step limit opened token
      rw [stepped] at properly
      have stands := standsAt_append taken token left
      refine ⟨taken.length + 1, ?_, ?_, fun others same => ?_, fun form none => by cases none⟩
      · rcases properly with ⟨-, rfl⟩ | ⟨-, levels, -, rfl⟩
        · exact taken_endError stands limit opened
        · exact .tooDeep stands
      · rw [drop_append_cons, List.drop_zero]
      · rw [read_fst_congr passes begins (by simp [stepped]) same, result]
  | @ranOut _ opened last passes isLast =>
      have absent : Token.endAt last.place ∉ tokens :=
        fun member => passes.lexeme_ne_endOfInput _ member rfl
      refine ⟨tokens.length + 1, taken_endError (Or.inr ⟨absent, rfl⟩) limit opened, ?_,
        fun others same => ?_, fun form none => by cases none⟩
      · rw [List.drop_of_length_le (Nat.le_succ _)]
      · rw [eq_of_take_succ_length same, result]

/-! ### Reading from a lexer -/

/-- **`Form.read` takes from a lexer just the tokens that it takes from their list.** In whatever
state a lexer is, what is read from it is what `Form.ofTokens?` reads from the tokens that it would
still hand out; what is read says how many of these were taken, and the lexer then holds the others.
No token that was not taken has a part in what is read, nor has the one taken behind a complete
form. -/
theorem read_lexer (limit : Limit) (lexer : Lexer) :
    (read limit lexer).1 = ofTokens? limit (TokenSource.tokens lexer) ∧
      ∃ k, (∀ n, Taken (TokenSource.tokens lexer) (ofTokens? limit (TokenSource.tokens lexer)) n ↔
          n = k) ∧
        TokenSource.tokens (read limit lexer).2 =
          (TokenSource.tokens lexer).drop (min (TokenSource.tokens lexer).length k) ∧
        (∀ others : List Token, others.take k = (TokenSource.tokens lexer).take k →
          ofTokens? limit others = ofTokens? limit (TokenSource.tokens lexer)) ∧
        ∀ form : Form, ofTokens? limit (TokenSource.tokens lexer) = .ok (some form) →
          ∀ others : List Token,
            others.take form.lexemes.length =
              (TokenSource.tokens lexer).take form.lexemes.length →
            ofTokens? limit others = .ok (some form) := by
  have same : read limit (TokenSource.tokens lexer) =
      ((read limit lexer).1, TokenSource.tokens (read limit lexer).2) := read_tokens limit lexer
  have first : ofTokens? limit (TokenSource.tokens lexer) = (read limit lexer).1 :=
    congrArg Prod.fst same
  obtain ⟨k, taken, left, decided, spelled⟩ := exists_taken same
  refine ⟨first.symm, k, fun n => ⟨fun taken' => ?_, ?_⟩, ?_, fun others front => ?_,
    fun form isRead others front => ?_⟩
  · rw [first] at taken'
    exact taken.unique lexer.nodup_tokens taken'
  · rintro rfl
    rw [first]
    exact taken
  · rw [Nat.min_comm, ← List.drop_eq_drop_min, left]
  · rw [first]
    exact decided others front
  · rw [first] at isRead
    exact (spelled form isRead others front).trans isRead

end Form

end SmallScheme
