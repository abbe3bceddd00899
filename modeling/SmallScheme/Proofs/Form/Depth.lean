import SmallScheme.Proofs.Form.Grammar

/-!
# Reading under a limit

What a nesting limit does to the reader. It is all or nothing: either the limit is not felt at
all, or reading stops with the error that it is exceeded (`Reader.run_limit`). A form that is
read under a limit has no more levels than the limit, because the constructs that are open
never stand deeper (`Reader.Fits`); so the limit is felt by just the forms that are deeper
than it.

## Main results

* `Reader.step_limit`, `Reader.run_limit`: under a limit, a step or a run is what it is without one,
  or fails for want of depth.
* `Reader.fits_step`, `Reader.depth_le_of_run`: what a step leaves fits the limit, and so does
  the form that a run completes.
* `Form.ofTokens?_limit`, `Form.ofTokens?_tooDeep_iff`: a limit on reading makes no difference or is
  exceeded, and it is exceeded by the forms that are deeper.
-/

namespace SmallScheme

namespace Reader

/-! ### A limit is felt or it is not -/

/-- `Reader.begin` under a limit does what it does without one, or stops for want of depth. -/
theorem begin_limit (levels : Nat) (opened : List Open) (token : Token) (step : Step) :
    begin (some levels) opened token step = begin none opened token step ∨
      begin (some levels) opened token step = .stopped (.tooDeeplyNested levels token) := by
  unfold begin
  rw [Limit.reached?_some]
  by_cases reached : levels ≤ opened.length
  · rw [if_pos reached]
    exact Or.inr rfl
  · rw [if_neg reached]
    exact Or.inl rfl

/-- `Reader.endError` under a limit is what it is without one, or that the limit is exceeded. -/
theorem endError_limit (levels : Nat) (opened : List Open) (token : Token) :
    endError (some levels) opened token = endError none opened token ∨
      endError (some levels) opened token = .tooDeeplyNested levels token := by
  unfold endError
  split
  · exact Or.inl rfl
  · rw [Limit.reached?_some]
    by_cases reached : levels ≤ opened.length
    · rw [if_pos reached]
      exact Or.inr rfl
    · rw [if_neg reached]
      exact Or.inl rfl

/-- **`Reader.step` under a limit is what it is without one, or stops for want of depth.** -/
theorem step_limit (levels : Nat) (opened : List Open) (token : Token) :
    step (some levels) opened token = step none opened token ∨
      step (some levels) opened token = .stopped (.tooDeeplyNested levels token) := by
  unfold step
  split
  · exact begin_limit levels opened token _
  · split
    · exact Or.inl rfl
    · exact begin_limit levels opened token _
  · exact begin_limit levels opened token _
  · exact begin_limit levels opened token _
  · exact begin_limit levels opened token _
  · exact begin_limit levels opened token _
  · exact begin_limit levels opened token _
  · rcases endError_limit levels opened token with same | stops
    · exact Or.inl (congrArg Step.stopped same)
    · exact Or.inr (congrArg Step.stopped stops)

/-- **`Reader.run` under a limit comes to what it comes to without one, or fails for want of
depth.** -/
theorem run_limit (levels : Nat) (opened : List Open) (token : Token) (rest : List Token) :
    run (some levels) opened token rest = run none opened token rest ∨
      ∃ at', (run (some levels) opened token rest).1 = .error (.tooDeeplyNested levels at') := by
  rw [run_eq, run_eq none]
  rcases step_limit levels opened token with same | stops
  · rw [same]
    cases step none opened token with
    | onward further =>
        cases rest with
        | nil =>
            rcases endError_limit levels further (.endAt token.place) with same | stops
            · exact Or.inl (congrArg (fun error => (Except.error error, [])) same)
            · exact Or.inr ⟨_, congrArg Except.error stops⟩
        | cons next rest => exact run_limit levels further next rest
    | finished form => exact Or.inl rfl
    | refused error => exact Or.inl rfl
    | stopped error => exact Or.inl rfl
  · rw [stops]
    exact Or.inr ⟨token, rfl⟩

/-! ### What is read fits the limit -/

/-- Whether open constructs and what is complete inside them have at most so many levels. -/
def Fits (levels : Nat) : List Open → Prop
  | [] => True
  | .quote :: outer => outer.length < levels ∧ Fits levels outer
  | .list items :: outer =>
    outer.length < levels ∧ (∀ item ∈ items, outer.length + 1 + item.depth ≤ levels) ∧
      Fits levels outer

/-- Whether what a step leaves has at most so many levels. -/
def Step.Fits (levels : Nat) : Step → Prop
  | .onward opened => Reader.Fits levels opened
  | .finished form => form.depth ≤ levels
  | _ => True

/-- Completing a form that fits into constructs that fit leaves constructs that fit. -/
theorem fits_complete {levels : Nat} {form : Form} {opened : List Open}
    (outside : Fits levels opened) (room : opened.length + form.depth ≤ levels) :
    (complete form opened).Fits levels := by
  induction opened generalizing form with
  | nil => simpa [complete, Step.Fits] using room
  | cons construct outer ih =>
      rw [List.length_cons] at room
      cases construct with
      | quote =>
          refine ih outside.2 ?_
          rw [Form.depth]
          omega
      | list items =>
          obtain ⟨shallow, itemsFit, outerFit⟩ := outside
          refine ⟨shallow, ?_, outerFit⟩
          intro item member
          rcases List.mem_cons.1 member with rfl | earlier
          · exact room
          · exact itemsFit item earlier

/-- `Reader.begin` under a limit of `levels` leaves what fits into `levels`, if it does so wherever
there is room. -/
theorem fits_begin {levels : Nat} {opened : List Open} {token : Token} {step : Step}
    (fits : opened.length < levels → step.Fits levels) :
    (begin (some levels) opened token step).Fits levels := by
  unfold begin
  rw [Limit.reached?_some]
  by_cases reached : levels ≤ opened.length
  · rw [if_pos reached]
    trivial
  · rw [if_neg reached]
    exact fits (by omega)

/-- `Reader.expect` leaves what fits, if the step that it guards does. -/
theorem fits_expect {levels : Nat} {expected : Kind} {token : Token} {step : Step}
    (fits : step.Fits levels) : (expect expected token step).Fits levels := by
  unfold expect
  split
  · exact fits
  · trivial

/-- **`Reader.step` under a limit of `levels` leaves what fits into `levels`.** -/
theorem fits_step {levels : Nat} {opened : List Open} (outside : Fits levels opened)
    (token : Token) : (step (some levels) opened token).Fits levels := by
  unfold step
  split
  · exact fits_begin fun shallow => fits_expect ⟨shallow, by simp, outside⟩
  · split
    · next items outer =>
      obtain ⟨shallow, itemsFit, outerFit⟩ := outside
      have inner : Form.depthAll items.reverse ≤ levels - (outer.length + 1) := by
        rw [Form.depthAll_le_iff]
        intro item member
        have bound := itemsFit item (List.mem_reverse.1 member)
        omega
      refine fits_expect (fits_complete outerFit ?_)
      rw [Form.depth]
      omega
    · exact fits_begin fun _ => trivial
  · exact fits_begin fun shallow => fits_expect ⟨shallow, outside⟩
  · exact fits_begin fun shallow => fits_complete outside shallow
  · exact fits_begin fun shallow => fits_complete outside shallow
  · exact fits_begin fun shallow => fits_complete outside shallow
  · exact fits_begin fun shallow => fits_complete outside shallow
  · trivial

/-- **A form that `Reader.run` completes under a limit is no deeper than the limit.** -/
theorem depth_le_of_run {levels : Nat} {opened : List Open} {token : Token}
    {rest : List Token} {form : Form} (outside : Fits levels opened)
    (h : (run (some levels) opened token rest).1 = .ok form) : form.depth ≤ levels := by
  have fits := fits_step outside token
  rw [run_eq] at h
  cases stepped : step (some levels) opened token with
  | finished complete =>
      rw [stepped] at h fits
      obtain rfl : complete = form := by simpa [settle] using h
      exact fits
  | onward further =>
      rw [stepped] at h fits
      cases rest with
      | nil => cases h
      | cons next rest => exact depth_le_of_run fits h
  | refused error =>
      rw [stepped] at h
      cases h
  | stopped error =>
      rw [stepped] at h
      cases h

end Reader

namespace Form

/-- **`Form.ofTokens?` under a limit gives what it gives without one, or fails for want of
depth.** -/
theorem ofTokens?_limit (levels : Nat) (tokens : List Token) :
    ofTokens? (some levels) tokens = ofTokens? none tokens ∨
      ∃ token, ofTokens? (some levels) tokens = .error (.tooDeeplyNested levels token) := by
  cases tokens with
  | nil => exact Or.inl rfl
  | cons token rest =>
      rw [ofTokens?_cons, ofTokens?_cons]
      by_cases ends : token.kind = .endOfInput
      · rw [if_pos ends, if_pos ends]
        exact Or.inl rfl
      · rw [if_neg ends, if_neg ends]
        rcases Reader.run_limit levels [] token rest with same | ⟨place, stops⟩
        · exact Or.inl (by rw [same])
        · exact Or.inr ⟨place, by rw [stops]; rfl⟩

/-- A form that `Form.ofTokens?` reads under a limit is no deeper than the limit. -/
theorem depth_le_of_ofTokens? {levels : Nat} {tokens : List Token} {form : Form}
    (h : ofTokens? (some levels) tokens = .ok (some form)) : form.depth ≤ levels := by
  obtain ⟨token, rest, rfl, ran⟩ := ofTokens?_eq_some h
  have nothing : Reader.Fits levels [] := trivial
  exact Reader.depth_le_of_run nothing ran

/-- **A form is too deep for a limit exactly when its `Form.depth` is beyond the limit.** -/
theorem ofTokens?_tooDeep_iff {levels : Nat} {tokens : List Token} {form : Form}
    (h : ofTokens? none tokens = .ok (some form)) :
    (∃ token, ofTokens? (some levels) tokens = .error (.tooDeeplyNested levels token)) ↔
      levels < form.depth := by
  constructor
  · rintro ⟨token, stops⟩
    refine Nat.lt_of_not_le fun shallow => ?_
    have room : Limit.Allows (some levels) 0 form.depth := Limit.allows_some.2 (by omega)
    rw [ofTokens?_of_spelled (lexemes_prefix_of_ofTokens? h) room] at stops
    cases stops
  · intro deep
    rcases ofTokens?_limit levels tokens with same | stops
    · have shallow := depth_le_of_ofTokens? (same.trans h)
      omega
    · exact stops

end Form

end SmallScheme
