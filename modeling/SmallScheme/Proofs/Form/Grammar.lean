import SmallScheme.Form.Reader
import SmallScheme.Proofs.Form.Shape

/-!
# The grammar of forms

The reader accepts the spellings of forms and nothing else. It is complete, since it reads the
spelling of a form as that form whatever is open around it and whatever follows
(`Reader.isRead`). It is sound, since the constructs that are open always account for
all the lexemes taken so far (`Reader.consumed`), and a form that gets complete is spelled by
them.

## Main results

* `Reader.run_eq`: a run in terms of the step that it begins with.
* `Reader.isRead`: the spelling of a form is read as that form, whatever is open around it.
* `Reader.accounts_step`, `Reader.lexemes_prefix_of_run`: what is read is spelled by what was
  taken.
* `Form.ofTokens?_grammar`: which tokens are read as which form, and which as none.
-/

namespace SmallScheme

namespace Reader

section

variable {σ : Type} [TokenSource σ]

/-- Reads on with the given constructs open, behind a token. -/
def resume (limit : Limit) (opened : List Open) (last : Token) (source : σ) :
    Except ReadError Form × σ :=
  match TokenSource.next? source with
  | none => (.error (endError limit opened (.endAt last.place)), source)
  | some (token, rest) => run limit opened token rest

/-- Reads on behind a token that did what the step says. -/
def settle (limit : Limit) (token : Token) (rest : σ) : Step → Except ReadError Form × σ
  | .finished form => (.ok form, advance rest)
  | .refused error => (.error error, advance rest)
  | .stopped error => (.error error, rest)
  | .onward opened => resume limit opened token rest

/-- **`Reader.run` takes one `Reader.step` and settles what follows from it.** -/
theorem run_eq (limit : Limit) (opened : List Open) (token : Token) (rest : σ) :
    run limit opened token rest = settle limit token rest (step limit opened token) := by
  rw [run]
  cases step limit opened token with
  | onward opened =>
      simp only [settle, resume]
      split <;> simp [*]
  | finished form => rfl
  | refused error => rfl
  | stopped error => rfl

end

/-- Reading on in front of a token takes one `Reader.step` at that token. -/
theorem resume_cons (limit : Limit) (opened : List Open) (last token : Token)
    (rest : List Token) :
    resume limit opened last (token :: rest) =
      settle limit token rest (step limit opened token) :=
  run_eq limit opened token rest

/-! ### Completeness -/

/-- `Reader.expect` lets a token of the expected kind through. -/
theorem expect_of_lexeme {token : Token} {l : Lexeme} (isLexeme : token.lexeme = l)
    (step : Step) : expect l.kind token step = step :=
  if_pos (congrArg Lexeme.kind isLexeme)

/-- At an opening parenthesis, `Reader.step` begins a list. -/
theorem step_leftParen {token : Token} (isLexeme : token.lexeme = .leftParen) (limit : Limit)
    (opened : List Open) :
    step limit opened token = begin limit opened token (.onward (.list [] :: opened)) := by
  simp only [step, isLexeme]
  exact congrArg (begin limit opened token) (expect_of_lexeme isLexeme _)

/-- At a closing parenthesis, `Reader.step` completes the innermost construct if it is a list. -/
theorem step_rightParen {token : Token} (isLexeme : token.lexeme = .rightParen) (limit : Limit)
    (items : List Form) (outer : List Open) :
    step limit (.list items :: outer) token = complete (.list items.reverse) outer := by
  simp only [step, isLexeme]
  exact expect_of_lexeme isLexeme _

/-- At a quote mark, `Reader.step` begins a quotation. -/
theorem step_quote {token : Token} (isLexeme : token.lexeme = .quote) (limit : Limit)
    (opened : List Open) :
    step limit opened token = begin limit opened token (.onward (.quote :: opened)) := by
  simp only [step, isLexeme]
  exact congrArg (begin limit opened token) (expect_of_lexeme isLexeme _)

/-- `Reader.begin` lets a form begin where the limit allows one level more. -/
theorem begin_of_allows {limit : Limit} {opened : List Open}
    (room : limit.Allows opened.length 1) (token : Token) (step : Step) :
    begin limit opened token step = step := by
  rw [begin, room.reached?_eq_none (Nat.le_refl 1)]

/-- A form is read off its spelling, whatever is open around it and whatever follows. -/
def IsRead (form : Form) : Prop :=
  ∀ {limit : Limit} {opened : List Open}, limit.Allows opened.length form.depth →
    ∀ {taken : List Token}, taken.map Token.lexeme = form.lexemes → ∀ last rest,
      resume limit opened last (taken ++ rest) =
        settle limit (taken.getLastD last) rest (complete form opened)

/-- A form of one lexeme `IsRead` if `Reader.step` completes it at that lexeme. -/
theorem isRead_atom {form : Form} {l : Lexeme} (single : form.lexemes = [l])
    (level : form.depth = 1)
    (completes : ∀ limit opened token, token.lexeme = l →
      step limit opened token = begin limit opened token (complete form opened)) :
    IsRead form := by
  intro limit opened room taken spelled last rest
  rw [single] at spelled
  rw [level] at room
  obtain ⟨token, rfl, isLexeme⟩ := List.map_eq_singleton_iff.1 spelled
  rw [List.singleton_append, resume_cons, completes limit opened token isLexeme,
    begin_of_allows room]
  rfl

/-- The last token of two sequences is the last one of the second, or else of the first. -/
theorem getLastD_append (first second : List Token) (last : Token) :
    (first ++ second).getLastD last = second.getLastD (first.getLastD last) := by
  induction first generalizing last with
  | nil => rfl
  | cons token first ih => rw [List.cons_append, List.getLastD_cons, List.getLastD_cons, ih]

/-- Reading the spellings of several forms inside a list puts the forms in front of the items of
that list, if each of them `IsRead`. -/
theorem resume_items {limit : Limit} {opened : List Open} {items : List Form}
    (isRead : ∀ item ∈ items, IsRead item) (before : List Form)
    (room : ∀ item ∈ items, limit.Allows (opened.length + 1) item.depth)
    {taken : List Token} (spelled : taken.map Token.lexeme = Form.lexemesAll items)
    (last : Token) (rest : List Token) :
    resume limit (.list before :: opened) last (taken ++ rest) =
      resume limit (.list (items.reverse ++ before) :: opened) (taken.getLastD last) rest := by
  induction items generalizing before taken last with
  | nil =>
      obtain rfl : taken = [] := List.map_eq_nil_iff.1 spelled
      rfl
  | cons item items ih =>
      obtain ⟨first, others, rfl, firstSpelled, othersSpelled⟩ :=
        List.map_eq_append_iff.1 spelled
      have itemRoom : limit.Allows (Open.list before :: opened).length item.depth :=
        room item List.mem_cons_self
      have itemRead := isRead item List.mem_cons_self itemRoom firstSpelled last
        (others ++ rest)
      rw [List.append_assoc, itemRead, complete, settle,
        ih (fun x hx => isRead x (List.mem_cons_of_mem item hx)) (item :: before)
          (fun x hx => room x (List.mem_cons_of_mem item hx)) othersSpelled,
        getLastD_append, List.reverse_cons, List.append_assoc, List.singleton_append]

/-- **The reader is complete**: every form is read off its spelling, wherever the limit leaves room
for its depth. -/
theorem isRead (form : Form) : IsRead form := by
  induction form with
  | number x => exact isRead_atom rfl rfl fun _ _ _ isLexeme => by simp only [step, isLexeme]
  | string s => exact isRead_atom rfl rfl fun _ _ _ isLexeme => by simp only [step, isLexeme]
  | boolean b => exact isRead_atom rfl rfl fun _ _ _ isLexeme => by simp only [step, isLexeme]
  | symbol name => exact isRead_atom rfl rfl fun _ _ _ isLexeme => by simp only [step, isLexeme]
  | list items ih =>
      intro limit opened room taken spelled last rest
      -- the tokens are the two parentheses and, inside, the spellings of the items
      obtain ⟨left, others, rfl, isLeft, othersSpelled⟩ := List.map_eq_cons_iff.1 spelled
      obtain ⟨inside, right, rfl, insideSpelled, rightSpelled⟩ :=
        List.map_eq_append_iff.1 othersSpelled
      obtain ⟨right, rfl, isRight⟩ := List.map_eq_singleton_iff.1 rightSpelled
      have fits : 1 + Form.depthAll items ≤ (Form.list items).depth := Nat.le_refl _
      have itemRoom : ∀ item ∈ items, limit.Allows (opened.length + 1) item.depth := by
        intro item member
        have bound := Form.depthAll_le_iff.1 (Nat.le_refl (Form.depthAll items)) item member
        exact room.below (by omega)
      have opens : step limit opened left = .onward (.list [] :: opened) := by
        rw [step_leftParen isLeft]
        exact begin_of_allows (room.mono (Form.one_le_depth _)) _ _
      have closes : step limit (.list items.reverse :: opened) right =
          complete (.list items) opened := by
        rw [step_rightParen isRight, List.reverse_reverse]
      rw [List.cons_append, List.append_assoc, resume_cons, opens, settle,
        resume_items ih [] itemRoom insideSpelled, List.append_nil, List.singleton_append,
        resume_cons, closes, List.getLastD_cons, List.getLastD_concat]
  | quote inner ih =>
      intro limit opened room taken spelled last rest
      obtain ⟨mark, others, rfl, isMark, innerSpelled⟩ := List.map_eq_cons_iff.1 spelled
      have innerRoom : limit.Allows (Open.quote :: opened).length inner.depth :=
        room.below (Nat.le_refl _)
      have opens : step limit opened mark = .onward (.quote :: opened) := by
        rw [step_quote isMark]
        exact begin_of_allows (room.mono (Form.one_le_depth _)) _ _
      rw [List.cons_append, resume_cons, opens, settle,
        ih innerRoom innerSpelled, complete, List.getLastD_cons]

/-! ### Soundness -/

/-- The lexemes that went into the open constructs, in the order they were taken. -/
def consumed : List Open → List Lexeme
  | [] => []
  | .quote :: outer => consumed outer ++ [.quote]
  | .list items :: outer => consumed outer ++ .leftParen :: Form.lexemesAll items.reverse

/-- Whether what a step leaves is spelled by just these lexemes. -/
def Step.Accounts (taken : List Lexeme) : Step → Prop
  | .onward opened => consumed opened = taken
  | .finished form => form.lexemes = taken
  | _ => True

/-- `Reader.complete` leaves constructs that are spelled by what was open and by the form that is
completed. -/
theorem accounts_complete (form : Form) (opened : List Open) :
    (complete form opened).Accounts (consumed opened ++ form.lexemes) := by
  induction opened generalizing form with
  | nil => rfl
  | cons construct outer ih =>
      cases construct with
      | quote =>
          have outwards := ih (.quote form)
          rwa [consumed, List.append_assoc]
      | list items =>
          rw [complete, Step.Accounts, consumed, consumed, List.reverse_cons,
            Form.lexemesAll_append]
          simp [Form.lexemesAll]

/-- `Reader.begin` leaves what is spelled by some lexemes, if the step that it guards does. -/
theorem accounts_begin {limit : Limit} {opened : List Open} {token : Token} {step : Step}
    {taken : List Lexeme} (accounts : step.Accounts taken) :
    (begin limit opened token step).Accounts taken := by
  unfold begin
  split
  · trivial
  · exact accounts

/-- **`Reader.step` leaves what is spelled by the constructs that were open and by its token.** -/
theorem accounts_step (limit : Limit) (opened : List Open) (token : Token) :
    (step limit opened token).Accounts (consumed opened ++ [token.lexeme]) := by
  cases isLexeme : token.lexeme with
  | leftParen =>
      rw [step_leftParen isLexeme]
      exact accounts_begin rfl
  | rightParen =>
      match opened with
      | [] | .quote :: _ =>
          simp only [step, isLexeme]
          exact accounts_begin trivial
      | .list items :: outer =>
          have closed := accounts_complete (.list items.reverse) outer
          rw [step_rightParen isLexeme]
          rwa [consumed, List.append_assoc, List.cons_append]
  | quote =>
      rw [step_quote isLexeme]
      exact accounts_begin rfl
  | number x =>
      simp only [step, isLexeme]
      exact accounts_begin (accounts_complete (.number x) opened)
  | string s =>
      simp only [step, isLexeme]
      exact accounts_begin (accounts_complete (.string s) opened)
  | boolean b =>
      simp only [step, isLexeme]
      exact accounts_begin (accounts_complete (.boolean b) opened)
  | symbol name =>
      simp only [step, isLexeme]
      exact accounts_begin (accounts_complete (.symbol name) opened)
  | endOfInput =>
      simp only [step, isLexeme]
      trivial

/-- **The reader is sound**: a form that `Reader.run` completes is spelled by what was open before
and by the first of the tokens. -/
theorem lexemes_prefix_of_run {limit : Limit} {opened : List Open} {token : Token}
    {rest : List Token} {form : Form} (h : (run limit opened token rest).1 = .ok form) :
    form.lexemes <+: consumed opened ++ (token :: rest).map Token.lexeme := by
  have accounts := accounts_step limit opened token
  rw [run_eq] at h
  cases stepped : step limit opened token with
  | finished complete =>
      rw [stepped] at h accounts
      obtain rfl : complete = form := by simpa [settle] using h
      have spelled : complete.lexemes = consumed opened ++ [token.lexeme] := accounts
      refine ⟨rest.map Token.lexeme, ?_⟩
      rw [spelled, List.append_assoc]
      rfl
  | onward further =>
      rw [stepped] at h accounts
      have spelled : consumed further = consumed opened ++ [token.lexeme] := accounts
      -- the recursion is on the tokens still to come, with other constructs open
      cases rest with
      | nil => cases h
      | cons next rest =>
          have later : form.lexemes <+: consumed further ++ (next :: rest).map Token.lexeme :=
            lexemes_prefix_of_run h
          rwa [spelled, List.append_assoc] at later
  | refused error =>
      rw [stepped] at h
      cases h
  | stopped error =>
      rw [stepped] at h
      cases h

end Reader

/-! ### The whole reader -/

namespace Form

/-- `Form.ofTokens?` of a first token and others reads nothing if the first is the end of input, and
else is a `Reader.run` from it. -/
theorem ofTokens?_cons (limit : Limit) (token : Token) (rest : List Token) :
    ofTokens? limit (token :: rest) =
      if token.kind = .endOfInput then .ok none
      else ((Reader.run limit [] token rest).1).map some := by
  rw [ofTokens?, read]
  simp only [TokenSource.next?]
  split <;> rfl

/-- `Form.ofTokens?` reads a form from its spelling and anything behind it, if the limit leaves room
for its depth. -/
theorem ofTokens?_append {limit : Limit} {form : Form} {taken : List Token}
    (spelled : taken.map Token.lexeme = form.lexemes) (room : limit.Allows 0 form.depth)
    (rest : List Token) : ofTokens? limit (taken ++ rest) = .ok (some form) := by
  cases taken with
  | nil => exact absurd spelled.symm form.lexemes_ne_nil
  | cons token others =>
      have begins : token.kind ≠ .endOfInput := by
        intro ends
        have isEnd := Lexeme.kind_eq_endOfInput_iff.1 ends
        have member : token.lexeme ∈ form.lexemes := spelled ▸ List.mem_cons_self
        exact form.endOfInput_notMem_lexemes (isEnd ▸ member)
      have isRead : Reader.run limit [] token (others ++ rest) =
          (.ok form, Reader.advance rest) := Reader.isRead form room spelled token rest
      rw [List.cons_append, ofTokens?_cons, if_neg begins, isRead]
      rfl

/-- `Form.ofTokens?` reads a form wherever the tokens begin with its spelling and the limit leaves
room for its depth. -/
theorem ofTokens?_of_spelled {limit : Limit} {form : Form} {tokens : List Token}
    (fits : form.lexemes <+: tokens.map Token.lexeme) (room : limit.Allows 0 form.depth) :
    ofTokens? limit tokens = .ok (some form) := by
  obtain ⟨others, split⟩ := fits
  obtain ⟨taken, rest, rfl, spelled, -⟩ := List.map_eq_append_iff.1 split.symm
  exact ofTokens?_append spelled room rest

/-- A form that `Form.ofTokens?` reads is the one that `Reader.run` completes from the first
token. -/
theorem ofTokens?_eq_some {limit : Limit} {tokens : List Token} {form : Form}
    (h : ofTokens? limit tokens = .ok (some form)) :
    ∃ token rest, tokens = token :: rest ∧ (Reader.run limit [] token rest).1 = .ok form := by
  cases tokens with
  | nil => cases h
  | cons token rest =>
      rw [ofTokens?_cons] at h
      split at h
      · cases h
      · cases ran : (Reader.run limit [] token rest).1 with
        | error error =>
            rw [ran] at h
            cases h
        | ok read =>
            rw [ran] at h
            cases h
            exact ⟨token, rest, rfl, ran⟩

/-- The tokens begin with the spelling of the form that `Form.ofTokens?` reads. -/
theorem lexemes_prefix_of_ofTokens? {limit : Limit} {tokens : List Token} {form : Form}
    (h : ofTokens? limit tokens = .ok (some form)) :
    form.lexemes <+: tokens.map Token.lexeme := by
  obtain ⟨token, rest, rfl, ran⟩ := ofTokens?_eq_some h
  exact Reader.lexemes_prefix_of_run ran

/-- A form that `Form.ofTokens?` reads under a limit is the one that it reads without one. -/
theorem ofTokens?_none_of_limit {limit : Limit} {tokens : List Token} {form : Form}
    (h : ofTokens? limit tokens = .ok (some form)) : ofTokens? none tokens = .ok (some form) :=
  ofTokens?_of_spelled (lexemes_prefix_of_ofTokens? h) (Limit.allows_none 0 form.depth)

/-- `Form.ofTokens?` reads nothing, and finds no error, exactly when there are no tokens or the end
of input is the first. -/
theorem ofTokens?_eq_none_iff {limit : Limit} {tokens : List Token} :
    ofTokens? limit tokens = .ok none ↔
      tokens = [] ∨ ∃ place rest, tokens = .endAt place :: rest := by
  cases tokens with
  | nil => simp [ofTokens?, read, TokenSource.next?]
  | cons token rest =>
      rw [ofTokens?_cons]
      constructor
      · intro h
        split at h
        · next ends =>
          have isEnd := Lexeme.kind_eq_endOfInput_iff.1 ends
          refine Or.inr ⟨token.place, rest, ?_⟩
          rw [Token.endAt, ← isEnd]
        · cases ran : (Reader.run limit [] token rest).1 <;>
            · rw [ran] at h
              cases h
      · rintro (none | ⟨place, others, same⟩)
        · cases none
        · cases same
          rfl

/-- **`Form.ofTokens?` accepts exactly the grammar.** Without a limit on depth, it reads a form if
and only if the tokens begin with its `Form.lexemes`, and reads none if and only if there are no
tokens or the end of input comes first. So no two forms fit the same tokens, and what stands behind
the spelling changes nothing. -/
theorem ofTokens?_grammar (tokens : List Token) :
    (∀ form, ofTokens? none tokens = .ok (some form) ↔
        form.lexemes <+: tokens.map Token.lexeme) ∧
      (ofTokens? none tokens = .ok none ↔
        tokens = [] ∨ ∃ place rest, tokens = .endAt place :: rest) ∧
      (∀ form other : Form, form.lexemes <+: tokens.map Token.lexeme →
        other.lexemes <+: tokens.map Token.lexeme → form = other) ∧
      ∀ (form : Form) (taken : List Token), taken <+: tokens →
        taken.map Token.lexeme = form.lexemes →
        ∀ rest, ofTokens? none (taken ++ rest) = ofTokens? none tokens := by
  have room (form : Form) := Limit.allows_none 0 form.depth
  refine ⟨fun form => ?_, ofTokens?_eq_none_iff, ?_, ?_⟩
  · constructor
    · exact lexemes_prefix_of_ofTokens?
    · exact fun fits => ofTokens?_of_spelled fits (room form)
  · intro form other fits otherFits
    have same := (ofTokens?_of_spelled fits (room form)).symm.trans
      (ofTokens?_of_spelled otherFits (room other))
    cases same
    rfl
  · rintro form taken ⟨others, rfl⟩ spelled rest
    rw [ofTokens?_append spelled (room form), ofTokens?_append spelled (room form)]

end Form

end SmallScheme
