import SmallScheme.Proofs.Form.Enclosure
import SmallScheme.Proofs.Form.Errors
import SmallScheme.Proofs.Form.Shape

/-!
# Where a limit is exceeded in reading

A reader under a limit stops at the first token at which a form begins, or has to begin, with as
many constructs open around it as the limit allows (`Form.MeetsForm`); that may be a token on which
it would fail without the limit as well. If there is no such token, the limit is not felt.

So a form that is too deep is given up where the first of its inner forms begins that is one level
deeper than the limit, and a higher limit changes nothing unless the lower one was exceeded.

## Main results

* `Reader.passes_limit`: under a limit, the reader passes over the same tokens or stops at one of
  them.
* `Form.ofTokens?_ended`: tokens without an end of input are read as if it came behind them.
* `Form.ofTokens?_eq_tooDeep_iff`: a limit is exceeded at the first token where a form is due with
  as many constructs open as the limit allows.
* `Form.isGivenUp`: where the spelling of a form that is too deep is given up.
* `Form.ofTokens?_under_limit`: all that a limit on reading does.
-/

namespace SmallScheme

namespace Reader

variable {levels : Nat} {opened last : List Open} {token : Token} {taken : List Token}

/-- **Tokens that are passed over without a limit are passed over under one**, or the reader stops
at one of them for want of depth. -/
theorem passes_limit (h : Passes none opened taken last) (levels : Nat) :
    Passes (some levels) opened taken last ∨
      ∃ front token back mid, taken = front ++ token :: back ∧
        Passes (some levels) opened front mid ∧
        step (some levels) mid token = .stopped (.tooDeeplyNested levels token) := by
  induction h with
  | nil => exact Or.inl .nil
  | @cons opened _ _ token others steps _ ih =>
      rcases step_limit levels opened token with same | stops
      · rw [steps] at same
        rcases ih with passes | ⟨front, stopping, back, mid, rfl, passes, stops⟩
        · exact Or.inl (.cons same passes)
        · exact Or.inr ⟨token :: front, stopping, back, mid, rfl, .cons same passes, stops⟩
      · exact Or.inr ⟨[], token, others, opened, rfl, .nil, stops⟩

/-- Tokens that are passed over under a limit are passed over without one. -/
theorem Passes.unlimited (h : Passes (some levels) opened taken last) :
    Passes none opened taken last := by
  induction h with
  | nil => exact .nil
  | @cons opened _ _ token _ steps _ ih =>
      rcases step_limit levels opened token with same | stops
      · exact .cons (same.symm.trans steps) ih
      · rw [stops] at steps
        cases steps

/-- Tokens that are passed over under a limit leave constructs that fit into it, if those before
did. -/
theorem Passes.fits (h : Passes (some levels) opened taken last) (outside : Fits levels opened) :
    Fits levels last := by
  induction h with
  | nil => exact outside
  | @cons opened _ _ token _ steps _ ih =>
      have next := fits_step outside token
      rw [steps] at next
      exact ih next

/-- Constructs that fit into a number of levels are no more than that. -/
theorem Fits.length_le (h : Fits levels opened) : opened.length ≤ levels := by
  match opened with
  | [] => exact Nat.zero_le levels
  | .quote :: _ => exact h.1
  | .list _ :: _ => exact h.1

/-- `Reader.begin` stops for want of depth where as many constructs are open as the limit allows. -/
theorem begin_of_full (full : opened.length = levels) (token : Token) (step : Step) :
    begin (some levels) opened token step = .stopped (.tooDeeplyNested levels token) := by
  rw [begin, Limit.reached?_some, if_pos (Nat.le_of_eq full.symm)]

end Reader

namespace Form

open Reader

/-! ### Where a form begins or has to begin -/

/-- Whether a form begins at a lexeme, or has to begin there: everywhere behind a quote mark; inside
a list, at all but its closing parenthesis and the end of input; with nothing open, at all but the
end of input. -/
def FormDue : List Kind → Lexeme → Prop
  | [], l => l ≠ .endOfInput
  | .quote :: _, _ => True
  | _ :: _, l => l ≠ .rightParen ∧ l ≠ .endOfInput

variable {levels more : Nat} {opened : List Open} {token : Token} {tokens taken : List Token}

/-- `Reader.step` stops for want of depth where a form is due and as many constructs are open as the
limit allows. -/
theorem step_of_due (full : opened.length = levels)
    (due : FormDue (opened.map Open.kind) token.lexeme) :
    step (some levels) opened token = .stopped (.tooDeeplyNested levels token) := by
  cases isLexeme : token.lexeme with
  | rightParen =>
      rw [isLexeme] at due
      cases opened with
      | nil =>
          simp only [step, isLexeme]
          exact begin_of_full full token _
      | cons construct outer =>
          cases construct with
          | quote =>
              simp only [step, isLexeme]
              exact begin_of_full full token _
          | list items => exact absurd rfl due.1
  | endOfInput =>
      rw [isLexeme] at due
      cases opened with
      | nil => exact absurd rfl due
      | cons construct outer =>
          cases construct with
          | list items => exact absurd rfl due.2
          | quote =>
              simp only [step, isLexeme, endError, Limit.reached?_some,
                if_pos (Nat.le_of_eq full.symm)]
  | leftParen =>
      rw [step_leftParen isLexeme]
      exact begin_of_full full token _
  | quote =>
      rw [step_quote isLexeme]
      exact begin_of_full full token _
  | number x =>
      simp only [step, isLexeme]
      exact begin_of_full full token _
  | string s =>
      simp only [step, isLexeme]
      exact begin_of_full full token _
  | boolean b =>
      simp only [step, isLexeme]
      exact begin_of_full full token _
  | symbol name =>
      simp only [step, isLexeme]
      exact begin_of_full full token _

/-- Tokens with their end of input behind them. -/
def ended (tokens : List Token) : List Token :=
  tokens ++ [endToken tokens]

/-- Whether reading without a limit comes to a token behind others, with this many constructs open
around it, and a form begins or has to begin there. -/
def MeetsForm (levels : Nat) (tokens taken : List Token) (token : Token) : Prop :=
  taken ++ [token] <+: ended tokens ∧
    ∃ around, OpenBehind (taken.map Token.lexeme) around ∧ around.length = levels ∧
      FormDue around token.lexeme

/-- Whether a token is the first at which a form begins or has to begin with this many constructs
open around it. -/
def FirstMeets (levels : Nat) (tokens : List Token) (token : Token) : Prop :=
  ∃ taken, MeetsForm levels tokens taken token ∧
    ∀ taken' token', MeetsForm levels tokens taken' token' → taken.length ≤ taken'.length

/-- Tokens have at most one token that `FirstMeets` a number of levels. -/
theorem FirstMeets.unique {token' : Token} (h : FirstMeets levels tokens token)
    (h' : FirstMeets levels tokens token') : token' = token := by
  obtain ⟨taken, meets, first⟩ := h
  obtain ⟨taken', meets', first'⟩ := h'
  obtain ⟨rest, split⟩ := meets.1
  obtain ⟨rest', split'⟩ := meets'.1
  have length := Nat.le_antisymm (first taken' token' meets') (first' taken token meets)
  rw [← split', List.append_assoc, List.append_assoc] at split
  obtain ⟨-, same⟩ := List.append_inj split length
  exact (List.cons.inj same).1.symm

/-! ### Tokens without an end of input -/

/-- The `endToken` of tokens is an end of input. -/
theorem lexeme_endToken (tokens : List Token) : (endToken tokens).lexeme = .endOfInput := by
  rw [endToken]
  split
  · next token _ found =>
    have isEnd := List.find?_some found
    exact Lexeme.kind_eq_endOfInput_iff.1 (of_decide_eq_true isEnd)
  · rfl
  · rfl

/-- **`Form.ofTokens?` reads tokens as if their end of input stood behind them.** -/
theorem ofTokens?_ended (limit : Limit) (tokens : List Token) :
    ofTokens? limit (ended tokens) = ofTokens? limit tokens := by
  have course := course_read limit tokens
  rw [ofTokens?, ofTokens?, ended]
  cases result : read limit tokens with
  | mk outcome left =>
      rw [result] at course
      cases course with
      | nothing ends =>
          refine ofTokens?_eq_none_iff.2 (Or.inr ?_)
          cases tokens with
          | nil => exact ⟨.start, [], rfl⟩
          | cons token rest =>
              refine ⟨token.place, rest ++ [endToken (token :: rest)], ?_⟩
              rw [Token.endAt, ← ends token rfl]
              rfl
      | @complete _ _ opened token _ passes stepped =>
          have properly := endsProperly_step limit opened token
          rw [stepped] at properly
          rw [List.append_assoc, List.cons_append, read_append passes (fun _ => properly), stepped]
          rfl
      | @refused _ _ opened token _ passes stepped =>
          have properly := endsProperly_step limit opened token
          rw [stepped] at properly
          obtain ⟨-, closes, -⟩ := properly
          rw [List.append_assoc, List.cons_append, read_append passes (by simp [closes]), stepped]
          rfl
      | stopped passes begins stepped =>
          rw [List.append_assoc, List.cons_append, read_append passes begins, stepped]
          rfl
      | ranOut passes isLast =>
          have inner := passes.lexeme_ne_endOfInput
          have nonempty : tokens ≠ [] := by
            rintro rfl
            cases isLast
          rw [endToken_of_getLast? inner isLast, read_append passes (absurd · nonempty)]
          rfl

/-! ### Reading stops there -/

/-- **A limit is exceeded if reading without one comes to a token where a form is due** with as many
constructs open as the limit allows, or with more. -/
theorem exists_tooDeep_of_meetsForm (h : MeetsForm more tokens taken token)
    (within : levels ≤ more) :
    ∃ stopping, ofTokens? (some levels) tokens = .error (.tooDeeplyNested levels stopping) := by
  obtain ⟨⟨rest, split⟩, around, isOpen, full, due⟩ := h
  obtain ⟨opened, passes, rfl⟩ := openBehind_iff_passes.1 isOpen
  rw [List.length_map] at full
  rw [← ofTokens?_ended, ← split, List.append_assoc, List.singleton_append, ofTokens?]
  rcases passes_limit passes levels with passes' | ⟨front, stopping, back, mid, rfl, passes', stops⟩
  · have begins : taken = [] → token.lexeme ≠ .endOfInput := by
      rintro rfl
      cases passes
      exact due
    have most := (passes'.fits trivial).length_le
    rw [read_append passes' begins, step_of_due (by omega) due]
    exact ⟨token, rfl⟩
  · have inner := passes.lexeme_ne_endOfInput
    have begins : stopping.lexeme ≠ .endOfInput := inner stopping (by simp)
    rw [List.append_assoc, List.cons_append, read_append passes' (fun _ => begins), stops]
    exact ⟨stopping, rfl⟩

/-- Where `Reader.step` stops for want of depth, a form is due and as many constructs are open as
the limit allows. -/
theorem due_of_step {stopping : Token}
    (stops : step (some levels) opened token = .stopped (.tooDeeplyNested levels stopping))
    (begins : opened = [] → token.lexeme ≠ .endOfInput) :
    stopping = token ∧ levels ≤ opened.length ∧
      FormDue (opened.map Open.kind) token.lexeme := by
  have properly := endsProperly_step (some levels) opened token
  rw [stops] at properly
  rcases properly with ⟨isEnd, atEnd⟩ | ⟨inner, most, reached, deep⟩
  · match opened with
    | [] => exact absurd isEnd (begins rfl)
    | .list _ :: _ => cases atEnd
    | .quote :: outer =>
        simp only [endError, Limit.reached?_some] at atEnd
        by_cases full : levels ≤ (Open.quote :: outer).length
        · rw [if_pos full] at atEnd
          cases atEnd
          exact ⟨rfl, full, trivial⟩
        · rw [if_neg full] at atEnd
          cases atEnd
  · cases deep
    rw [Limit.reached?_some, Option.ite_none_right_eq_some] at reached
    refine ⟨rfl, reached.1, ?_⟩
    match opened with
    | [] => exact inner
    | .quote :: _ => trivial
    | .list items :: outer =>
        refine ⟨fun closes => ?_, inner⟩
        -- a parenthesis that closes a list does so under any limit
        have unlimited := (step_rightParen closes none items outer).trans
          ((step_rightParen closes (some levels) items outer).symm.trans stops)
        have properly := endsProperly_step none (.list items :: outer) token
        rw [unlimited] at properly
        rcases properly with ⟨isEnd, -⟩ | ⟨-, _, reached', -⟩
        · exact inner isEnd
        · cases reached'

/-- A limit that is exceeded before the end of input is exceeded behind tokens that are passed over,
where a form is due and as many constructs are open as the limit allows. -/
theorem Course.exists_due {left : List Token} {error : ReadError}
    (course : Course (some levels) tokens (.error error, left))
    (deep : error = .tooDeeplyNested levels token)
    (ends : ∃ ending ∈ tokens, ending.lexeme = .endOfInput) :
    ∃ taken opened, taken ++ [token] <+: tokens ∧ Passes (some levels) [] taken opened ∧
      opened.length = levels ∧ FormDue (opened.map Open.kind) token.lexeme := by
  cases course with
  | @refused _ _ opened refused _ _ stepped =>
      have properly := endsProperly_step (some levels) opened refused
      rw [stepped, deep] at properly
      cases properly.1
  | @stopped taken _ opened stopping _ passes begins stepped =>
      rw [deep] at stepped
      have first : opened = [] → stopping.lexeme ≠ .endOfInput := by
        rintro rfl
        have whole : [] = taken.map Token.lexeme := passes.consumed
        exact begins (List.map_eq_nil_iff.1 whole.symm)
      obtain ⟨rfl, full, due⟩ := due_of_step stepped first
      have room := (passes.fits trivial).length_le
      refine ⟨taken, opened, ⟨left, ?_⟩, passes, Nat.le_antisymm room full, due⟩
      rw [List.append_assoc, List.singleton_append]
  | ranOut passes _ =>
      obtain ⟨ending, member, isEnd⟩ := ends
      exact absurd isEnd (passes.lexeme_ne_endOfInput ending member)

/-- **The token that is reported as too deep `FirstMeets` the limit**: reading without a limit comes
there to a form that is due with as many constructs open as the limit allows, and to none before. -/
theorem firstMeets_of_tooDeep
    (h : ofTokens? (some levels) tokens = .error (.tooDeeplyNested levels token)) :
    FirstMeets levels tokens token := by
  have course := course_read (some levels) (ended tokens)
  rw [← ofTokens?_ended, ofTokens?] at h
  generalize read (some levels) (ended tokens) = result at h course
  obtain ⟨outcome, left⟩ := result
  obtain rfl : outcome = .error (.tooDeeplyNested levels token) := h
  have ends : ∃ ending ∈ ended tokens, ending.lexeme = .endOfInput :=
    ⟨endToken tokens, List.mem_append_right _ List.mem_cons_self, lexeme_endToken tokens⟩
  obtain ⟨taken, opened, front, passes, full, due⟩ := course.exists_due rfl ends
  have isOpen := openBehind_iff_passes.2 ⟨opened, passes.unlimited, rfl⟩
  refine ⟨taken, ⟨front, _, isOpen, (List.length_map _).trans full, due⟩, ?_⟩
  rintro taken' token' ⟨front', around, isOpen', full', due'⟩
  -- a token before, where a form is due, would have been passed over
  by_contra shorter
  have within : taken' ++ [token'] <+: taken := by
    have passed : taken <+: ended tokens := (List.prefix_append taken [token]).trans front
    refine List.prefix_of_prefix_length_le front' passed ?_
    rw [List.length_append, List.length_singleton]
    omega
  obtain ⟨others, rfl⟩ := within
  rw [List.append_assoc] at passes
  obtain ⟨mid, before, behind⟩ := passes.split
  obtain rfl := (openBehind_iff_passes.2 ⟨mid, before.unlimited, rfl⟩).unique isOpen'
  rw [List.length_map] at full'
  cases behind with
  | cons steps _ =>
      rw [step_of_due full' due'] at steps
      cases steps

/-- `Form.ofTokens?` reports a token as too deep exactly when the token `FirstMeets` the limit. -/
theorem ofTokens?_eq_tooDeep_iff :
    ofTokens? (some levels) tokens = .error (.tooDeeplyNested levels token) ↔
      FirstMeets levels tokens token := by
  constructor
  · exact firstMeets_of_tooDeep
  · intro first
    have ⟨_, meets, _⟩ := first
    obtain ⟨stopping, stops⟩ := exists_tooDeep_of_meetsForm meets (Nat.le_refl levels)
    rwa [first.unique (firstMeets_of_tooDeep stops)] at stops

/-! ### Forms that are too deep -/

/-- A form is due at every lexeme that can begin one, whatever is open around it. -/
theorem formDue_of_ne {l : Lexeme} (opens : l ≠ .rightParen) (inner : l ≠ .endOfInput)
    (around : List Kind) : FormDue around l := by
  match around with
  | [] => exact inner
  | .quote :: _ => trivial
  | .leftParen :: _ | .rightParen :: _ | .number :: _ | .string :: _ | .boolean :: _
  | .symbol :: _ | .endOfInput :: _ => exact ⟨opens, inner⟩

/-- Whether reading on with these constructs open gives tokens up, for want of depth, at the one
that begins the first of some forms that is a level deeper than the limit. -/
def GivesUp (levels : Nat) (opened : List Open) (occurrences : List Occurrence) (index : Nat)
    (taken : List Token) : Prop :=
  ∃ o before token behind, occurrences.find? (·.depth = levels + 1) = some o ∧
    o.index = index + before.length ∧ taken = before ++ token :: behind ∧
    ∀ last rest, (resume (some levels) opened last (taken ++ rest)).1 =
      .error (.tooDeeplyNested levels token)

/-- Whether a form is given up where it is too deep to be read. -/
def IsGivenUp (form : Form) : Prop :=
  ∀ {levels : Nat} {opened : List Open}, opened.length ≤ levels →
    levels < opened.length + form.depth →
    ∀ {taken : List Token}, taken.map Token.lexeme = form.lexemes → ∀ index,
      GivesUp levels opened (form.occurrences (opened.length + 1) index) index taken

/-- The reader `GivesUp` a form at its first token where as many constructs are open as the limit
allows. -/
theorem givesUp_at_once (form : Form) (full : opened.length = levels)
    (spelled : taken.map Token.lexeme = form.lexemes) (index : Nat) :
    GivesUp levels opened (form.occurrences (opened.length + 1) index) index taken := by
  cases taken with
  | nil => exact absurd spelled.symm form.lexemes_ne_nil
  | cons token behind =>
      have opens : token.lexeme ≠ .rightParen := by
        intro closes
        refine form.head?_lexemes_ne ?_
        rw [← spelled, List.map_cons, closes]
        rfl
      have inner : token.lexeme ≠ .endOfInput := by
        intro isEnd
        refine form.endOfInput_notMem_lexemes ?_
        rw [← spelled, List.map_cons, isEnd]
        exact List.mem_cons_self
      obtain ⟨others, listed⟩ := List.head?_eq_some_iff.1
        (head?_occurrences (opened.length + 1) index form)
      refine ⟨⟨form, opened.length + 1, index⟩, [], token, behind, ?_, rfl, rfl,
        fun last rest => ?_⟩
      · rw [listed, List.find?_cons_of_pos]
        exact decide_eq_true (congrArg Nat.succ full)
      · rw [List.cons_append, resume_cons, step_of_due full (formDue_of_ne opens inner _)]
        rfl

/-- The reader `GivesUp` tokens whatever follows them. -/
theorem GivesUp.append {inside : List Occurrence} {index : Nat}
    (h : GivesUp levels opened inside index taken) (others : List Token) :
    GivesUp levels opened inside index (taken ++ others) := by
  obtain ⟨o, before, token, behind, first, stands, rfl, stops⟩ := h
  refine ⟨o, before, token, behind ++ others, first, stands, ?_, fun last rest => ?_⟩
  · rw [List.append_assoc, List.cons_append]
  · rw [List.append_assoc]
    exact stops last (others ++ rest)

/-- The reader `GivesUp` a form where it does so behind the token that opens the form. -/
theorem GivesUp.behind {form : Form} {inside : List Occurrence} {index : Nat}
    {within : List Open} {opening : Token} {others : List Token}
    (h : GivesUp levels within inside (index + 1) others) (short : opened.length ≠ levels)
    (opens : step (some levels) opened opening = .onward within) :
    GivesUp levels opened (⟨form, opened.length + 1, index⟩ :: inside) index
      (opening :: others) := by
  obtain ⟨o, before, token, behind, first, stands, rfl, stops⟩ := h
  refine ⟨o, opening :: before, token, behind, ?_, ?_, rfl, fun last rest => ?_⟩
  · rw [List.find?_cons_of_neg, first]
    simpa using short
  · rw [stands, List.length_cons]
    omega
  · rw [List.cons_append, resume_cons, opens]
    exact stops opening rest

/-- The reader `GivesUp` the spellings of several forms inside a list, if each form `IsGivenUp` and
one of them is too deep. -/
theorem givesUp_items {items : List Form} (each : ∀ item ∈ items, IsGivenUp item)
    (before : List Form) (room : opened.length + 1 ≤ levels)
    (deep : levels < opened.length + 1 + depthAll items)
    (spelled : taken.map Token.lexeme = lexemesAll items) (index : Nat) :
    GivesUp levels (.list before :: opened)
      (occurrencesAll (opened.length + 1 + 1) index items) index taken := by
  induction items generalizing before taken index with
  | nil =>
      rw [depthAll] at deep
      omega
  | cons item items ih =>
      obtain ⟨first, others, rfl, firstSpelled, othersSpelled⟩ := List.map_eq_append_iff.1 spelled
      rw [occurrencesAll]
      by_cases fits : opened.length + 1 + item.depth ≤ levels
      · -- the first item is read, and it holds nothing that is deeper than the limit
        have later : levels < opened.length + 1 + depthAll items := by
          rw [depthAll] at deep
          omega
        have none : (item.occurrences (opened.length + 1 + 1) index).find?
            (·.depth = levels + 1) = none := by
          refine List.find?_eq_none.2 fun o member => ?_
          have shallow := depth_lt_of_mem_occurrences member
          simp only [decide_eq_true_eq]
          omega
        have itemRoom : Limit.Allows (some levels) (Open.list before :: opened).length item.depth :=
          Limit.allows_some.2 fits
        have length : first.length = item.lexemes.length := by
          rw [← firstSpelled, List.length_map]
        obtain ⟨o, front, token, behind, found, stands, rfl, stops⟩ :=
          ih (fun x member => each x (List.mem_cons_of_mem item member)) (item :: before) later
            othersSpelled (index + item.lexemes.length)
        refine ⟨o, first ++ front, token, behind, ?_, ?_, ?_, fun last rest => ?_⟩
        · rw [List.find?_append, none, Option.none_or, found]
        · rw [stands, List.length_append, length, Nat.add_assoc]
        · rw [List.append_assoc]
        · rw [List.append_assoc, isRead item itemRoom firstSpelled]
          exact stops _ rest
      · have itemRoom : (Open.list before :: opened).length ≤ levels := room
        have inItem := each item List.mem_cons_self itemRoom (Nat.lt_of_not_le fits) firstSpelled
          index
        obtain ⟨o, front, token, behind, found, stands, split, stops⟩ := inItem.append others
        refine ⟨o, front, token, behind, ?_, stands, split, stops⟩
        rw [List.find?_append]
        exact congrArg (Option.or · _) found

/-- **A form that is too deep is given up where the first form inside it begins that is one level
deeper than the limit.** -/
theorem isGivenUp (form : Form) : IsGivenUp form := by
  induction form with
  | number x => exact fun within deep _ spelled =>
      givesUp_at_once (number x) (Nat.le_antisymm within (Nat.le_of_lt_succ deep)) spelled
  | string s => exact fun within deep _ spelled =>
      givesUp_at_once (string s) (Nat.le_antisymm within (Nat.le_of_lt_succ deep)) spelled
  | boolean b => exact fun within deep _ spelled =>
      givesUp_at_once (boolean b) (Nat.le_antisymm within (Nat.le_of_lt_succ deep)) spelled
  | symbol name => exact fun within deep _ spelled =>
      givesUp_at_once (symbol name) (Nat.le_antisymm within (Nat.le_of_lt_succ deep)) spelled
  | list items ih =>
      intro levels opened within deep taken spelled index
      by_cases full : opened.length = levels
      · exact givesUp_at_once (list items) full spelled index
      · have room : opened.length + 1 ≤ levels := Nat.lt_of_le_of_ne within full
        obtain ⟨left, others, rfl, isLeft, othersSpelled⟩ := List.map_eq_cons_iff.1 spelled
        obtain ⟨inside, right, rfl, insideSpelled, -⟩ := List.map_eq_append_iff.1 othersSpelled
        have opens : step (some levels) opened left = .onward (.list [] :: opened) := by
          rw [step_leftParen isLeft]
          exact begin_of_allows (Limit.allows_some.2 room) _ _
        rw [Form.depth, ← Nat.add_assoc] at deep
        exact ((givesUp_items ih [] room deep insideSpelled (index + 1)).append right).behind full
          opens
  | quote inner ih =>
      intro levels opened within deep taken spelled index
      by_cases full : opened.length = levels
      · exact givesUp_at_once (quote inner) full spelled index
      · have room : opened.length + 1 ≤ levels := Nat.lt_of_le_of_ne within full
        obtain ⟨mark, others, rfl, isMark, innerSpelled⟩ := List.map_eq_cons_iff.1 spelled
        have opens : step (some levels) opened mark = .onward (.quote :: opened) := by
          rw [step_quote isMark]
          exact begin_of_allows (Limit.allows_some.2 room) _ _
        rw [Form.depth, ← Nat.add_assoc] at deep
        have inside : (Open.quote :: opened).length ≤ levels := room
        exact (ih inside deep innerSpelled (index + 1)).behind full opens

/-- If `Form.ofTokens?` gives a form or an error, the tokens do not begin with the end of input. -/
theorem lexeme_head_ne {limit : Limit} (something : ofTokens? limit tokens ≠ .ok none) :
    ∀ token ∈ tokens.head?, token.lexeme ≠ .endOfInput := by
  intro token isHead isEnd
  obtain ⟨rest, rfl⟩ := List.head?_eq_some_iff.1 isHead
  have ends : token.kind = .endOfInput := Lexeme.kind_eq_endOfInput_iff.2 isEnd
  exact something (by rw [ofTokens?_cons, if_pos ends])

/-- Reading a form that is deeper than the limit fails at the token where the first form inside it
begins that is one level deeper than the limit. -/
theorem exists_first_too_deep {form : Form} (isRead : ofTokens? none tokens = .ok (some form))
    (deep : levels < form.depth) :
    ∃ o token, (form.occurrences 1 0).find? (·.depth = levels + 1) = some o ∧
      o.form.lexemes <+: (tokens.drop o.index).map Token.lexeme ∧
      tokens[o.index]? = some token ∧
      ofTokens? (some levels) tokens = .error (.tooDeeplyNested levels token) := by
  obtain ⟨others, split⟩ := lexemes_prefix_of_ofTokens? isRead
  obtain ⟨taken, rest, whole, spelled, -⟩ := List.map_eq_append_iff.1 split.symm
  have outside : levels < ([] : List Open).length + form.depth := by simpa using deep
  obtain ⟨o, before, token, behind, found, stands, rfl, stops⟩ :=
    isGivenUp form (Nat.zero_le levels) outside spelled 0
  rw [Nat.zero_add] at stands
  have first : tokens = before ++ token :: (behind ++ rest) := by
    rw [whole, List.append_assoc, List.cons_append]
  refine ⟨o, token, found, ?_, ?_, ?_⟩
  · obtain ⟨front, after, inside, stands'⟩ :=
      lexemes_of_mem_occurrences (List.mem_of_find?_eq_some found)
    rw [List.map_drop, ← split, inside, stands', Nat.zero_add, List.append_assoc, List.append_assoc,
      List.drop_left]
    exact List.prefix_append _ _
  · rw [stands, first, List.getElem?_append_right (Nat.le_refl _), Nat.sub_self]
    rfl
  · have begins := lexeme_head_ne (isRead.trans_ne (by simp))
    have nonempty : tokens ≠ [] := by
      rw [first]
      exact List.append_ne_nil_of_right_ne_nil before (List.cons_ne_nil _ _)
    rw [ofTokens?, read_eq_resume nonempty begins token, whole]
    exact congrArg (Except.map some) (stops token rest)

/-- A limit that `Form.ofTokens?` does not exceed can be raised without effect. -/
theorem ofTokens?_of_le (within : levels ≤ more)
    (keeps : ∀ token, ofTokens? (some levels) tokens ≠ .error (.tooDeeplyNested levels token)) :
    ofTokens? (some more) tokens = ofTokens? none tokens := by
  rcases ofTokens?_limit more tokens with same | ⟨token, stops⟩
  · exact same
  · have ⟨_, meets, _⟩ := firstMeets_of_tooDeep stops
    obtain ⟨stopping, stops'⟩ := exists_tooDeep_of_meetsForm meets within
    exact absurd stops' (keeps stopping)

/-- Under a limit of no levels, reading fails for want of depth unless nothing is read without a
limit. -/
theorem exists_tooDeep_zero (nonempty : ofTokens? none tokens ≠ .ok none) :
    ∃ token, ofTokens? (some 0) tokens = .error (.tooDeeplyNested 0 token) := by
  cases tokens with
  | nil => exact absurd rfl nonempty
  | cons token rest =>
      have inner : token.lexeme ≠ .endOfInput := lexeme_head_ne nonempty token rfl
      have front : [] ++ [token] <+: ended (token :: rest) := ⟨_, rfl⟩
      exact exists_tooDeep_of_meetsForm ⟨front, [], .nothing, rfl, inner⟩ (Nat.le_refl 0)

/-- **What a limit does to `Form.ofTokens?`.** It is exceeded at the first token at which a form
begins, or has to begin, with as many constructs open as the limit allows; if there is none, what is
read is what is read without a limit. So a form is read if it is no deeper than the limit, and else
given up where the first of its inner forms begins that is one level deeper; a limit that is not
exceeded can be raised without effect; and where no form may begin at all, only tokens that hold
none are accepted. -/
theorem ofTokens?_under_limit (levels : Nat) (tokens : List Token) :
    (∀ token, ofTokens? (some levels) tokens = .error (.tooDeeplyNested levels token) ↔
        FirstMeets levels tokens token) ∧
      ((∀ token, ¬ FirstMeets levels tokens token) →
        ofTokens? (some levels) tokens = ofTokens? none tokens) ∧
      (∀ form, ofTokens? none tokens = .ok (some form) →
        (form.depth ≤ levels → ofTokens? (some levels) tokens = .ok (some form)) ∧
        (levels < form.depth →
          ∃ o token, (form.occurrences 1 0).find? (·.depth = levels + 1) = some o ∧
            o.form.lexemes <+: (tokens.drop o.index).map Token.lexeme ∧
            tokens[o.index]? = some token ∧
            ofTokens? (some levels) tokens = .error (.tooDeeplyNested levels token))) ∧
      ((∀ token, ofTokens? (some levels) tokens ≠ .error (.tooDeeplyNested levels token)) →
        ∀ limit : Limit, (∀ more ∈ limit, levels ≤ more) →
          ofTokens? limit tokens = ofTokens? (some levels) tokens) ∧
      ((∀ token, ofTokens? (some 0) tokens ≠ .error (.tooDeeplyNested 0 token)) ↔
        ofTokens? none tokens = .ok none) := by
  have keeps : (∀ token, ofTokens? (some levels) tokens ≠ .error (.tooDeeplyNested levels token)) →
      ofTokens? (some levels) tokens = ofTokens? none tokens :=
    ofTokens?_of_le (Nat.le_refl levels)
  refine ⟨fun token => ofTokens?_eq_tooDeep_iff, fun nowhere => ?_, fun form isRead => ?_,
    fun h limit higher => ?_, ?_⟩
  · exact keeps fun token stops => nowhere token (firstMeets_of_tooDeep stops)
  · refine ⟨fun shallow => ?_, exists_first_too_deep isRead⟩
    have room : Limit.Allows (some levels) 0 form.depth := Limit.allows_some.2 (by omega)
    exact ofTokens?_of_spelled (lexemes_prefix_of_ofTokens? isRead) room
  · cases limit with
    | none => exact (keeps h).symm
    | some more => exact (ofTokens?_of_le (higher more rfl) h).trans (keeps h).symm
  · constructor
    · intro h
      by_contra something
      obtain ⟨token, stops⟩ := exists_tooDeep_zero something
      exact h token stops
    · intro nothing token stops
      rw [ofTokens?_eq_none_iff.2 (ofTokens?_eq_none_iff.1 nothing)] at stops
      cases stops

/-- The tokens of a list whose one item is a quoted symbol, without their end of input. -/
def quotedItem : List Token :=
  [⟨.leftParen, ⟨1, 1⟩⟩, ⟨.quote, ⟨1, 2⟩⟩, ⟨.symbol "a", ⟨1, 3⟩⟩, ⟨.rightParen, ⟨1, 4⟩⟩]

/-- Two levels are one too few for `quotedItem`: the symbol is the first form on the third. With
three levels it is read, and no more of them make a difference. -/
theorem ofTokens?_under_limit_quotedItem :
    ofTokens? none quotedItem = .ok (some (list [quote (symbol "a")])) ∧
      (list [quote (symbol "a")]).depth = 3 ∧
      ofTokens? (some 2) quotedItem = .error (.tooDeeplyNested 2 ⟨.symbol "a", ⟨1, 3⟩⟩) ∧
      FirstMeets 2 quotedItem ⟨.symbol "a", ⟨1, 3⟩⟩ ∧
      (∀ token, ¬ FirstMeets 3 quotedItem token) ∧
      ofTokens? (some 3) quotedItem = .ok (some (list [quote (symbol "a")])) ∧
      ofTokens? (some 7) quotedItem = ofTokens? (some 3) quotedItem := by
  have isRead : ofTokens? none quotedItem = .ok (some (list [quote (symbol "a")])) := by
    cbv
  have depth : (list [quote (symbol "a")]).depth = 3 := rfl
  obtain ⟨iff, -, ofForm, -, -⟩ := ofTokens?_under_limit 2 quotedItem
  obtain ⟨o, token, found, -, stands, stops⟩ := (ofForm _ isRead).2 (by decide)
  cases found
  cases stands
  obtain ⟨iff', unlimited, ofForm', raised, -⟩ := ofTokens?_under_limit 3 quotedItem
  have keeps := (ofForm' _ isRead).1 (Nat.le_refl 3)
  have ne : ∀ token, ofTokens? (some 3) quotedItem ≠ .error (.tooDeeplyNested 3 token) := by
    intro token
    rw [keeps]
    rintro ⟨⟩
  have nowhere : ∀ token, ¬ FirstMeets 3 quotedItem token :=
    fun token first => ne token ((iff' token).2 first)
  exact ⟨isRead, depth, stops, (iff _).1 stops, nowhere, (unlimited nowhere).trans isRead,
    raised ne (some 7) (by simp)⟩

end Form

end SmallScheme
