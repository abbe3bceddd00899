import SmallScheme.Proofs.Dialogue.Lines

/-!
# What a dialogue writes

A dialogue keeps nothing from one line to the next: for each line of the input that is a text it
writes the prompt and the answer to that line, and at the end of the input, or before the first
line that is no text, one more prompt. So a dialogue can be cut behind any line.

## Main results

* `Dialogue.answers_respond`: the answer to a line, for each of the ways that a line can go.
* `Dialogue.converse_eq`: all that a dialogue says, line by line.
* `Dialogue.output_hold_eq_answers`: all that the program writes in its environment, and how the
  outputs for two inputs fit together.
-/

namespace SmallScheme.Dialogue

/-! ### One line -/

/-- The tokens of a line as far as they are shown. -/
def shownTokens (settings : Settings) (line : String) : String :=
  if settings.showTokens then
    String.join ((tokenize line).map fun token => "\t" ++ token.text ++ "\n")
  else ""

/-- The form of a line as far as it is shown. -/
def shownForm (settings : Settings) (form : Form) : String :=
  if settings.showForm then "AST: " ++ form.text ++ "\n" else ""

/-- Whether a text is what is to be answered to a line. -/
inductive Answers (settings : Settings) (line : String) : String → Prop
  | refused {error : ReadError} :
      Form.ofTokens? settings.limit (tokenize line) = .error error →
      Answers settings line (shownTokens settings line ++ ("\t" ++ error.message ++ "\n"))
  | blank :
      Form.ofTokens? settings.limit (tokenize line) = .ok none →
      Answers settings line (shownTokens settings line)
  | value {form : Form} {value : Value} :
      Form.ofTokens? settings.limit (tokenize line) = .ok (some form) →
      form.eval settings.limit .program = .ok value →
      Answers settings line
        (shownTokens settings line ++ (shownForm settings form ++ (value.text ++ "\n")))
  | failed {form : Form} {error : EvalError} :
      Form.ofTokens? settings.limit (tokenize line) = .ok (some form) →
      form.eval settings.limit .program = .error error →
      Answers settings line
        (shownTokens settings line ++
          (shownForm settings form ++ ("ERROR: " ++ error.message ++ "\n")))

variable {settings : Settings} {text : String} {line input : List UInt8}

/-- **`respond` gives every line the answer that `Answers` asks for.** -/
theorem answers_respond (settings : Settings) (line : String) :
    Answers settings line (respond settings line) := by
  cases read : Form.ofTokens? settings.limit (tokenize line) with
  | error error =>
      have said : respond settings line =
          shownTokens settings line ++ ("\t" ++ error.message ++ "\n") := by
        simp only [respond, run, read, shownTokens, tokenList]
      rw [said]
      exact .refused read
  | ok found =>
      cases found with
      | none =>
          have said : respond settings line = shownTokens settings line := by
            simp only [respond, run, read, shownTokens, tokenList, String.append_empty]
          rw [said]
          exact .blank read
      | some form =>
          have said : respond settings line = shownTokens settings line ++
              (shownForm settings form ++ resultLine (form.eval settings.limit .program)) := by
            simp only [respond, run, read, shownTokens, tokenList, shownForm, Option.map_some,
              Option.getD_some]
          rw [said]
          cases result : form.eval settings.limit .program with
          | ok value => exact .value read result
          | error error => exact .failed read result

/-- `turn` at a line that is a text answers it by `respond`. -/
theorem turn_encode (settings : Settings) (nonempty : encode text ≠ []) :
    turn settings (encode text) = .answer (respond settings text) := by
  rw [turn, decode_eq_some_iff.2 rfl, List.isEmpty_eq_false_iff.2 nonempty]
  rfl

/-- `turn` at a line that is no text ends the dialogue with status zero. -/
theorem turn_of_not_text (settings : Settings) (noText : ∀ text, encode text ≠ line) :
    turn settings line = .leave 0 := by
  have undecoded : decode line = none := by
    rw [Option.eq_none_iff_forall_ne_some]
    exact fun text decoded => noText text (decode_eq_some_iff.1 decoded)
  rw [turn, undecoded]
  exact ite_self _

/-! ### All lines -/

/-- `converse` prompts, answers the first line, and goes on with the input behind it. -/
theorem converse_of_answer {said : String}
    (answered : turn settings (takeLine input).1 = .answer said) :
    converse settings input =
      (prompt ++ said ++ (converse settings (takeLine input).2).1,
        (converse settings (takeLine input).2).2) := by
  rw [converse]
  split
  · next left => cases left.symm.trans answered
  · next again =>
    cases again.symm.trans answered
    rfl

/-- `converse` prompts and ends where `turn` leaves the dialogue. -/
theorem converse_of_leave {status : UInt32}
    (left : turn settings (takeLine input).1 = .leave status) :
    converse settings input = (prompt, status) := by
  rw [converse]
  split
  · next again =>
    cases again.symm.trans left
    rfl
  · next answered => cases answered.symm.trans left

/-- **`converse` answers the lines of an input up to the first that is no text**, each behind a
prompt, and ends with a prompt. -/
theorem converse_eq (settings : Settings) {texts : List String} {rest : List (List UInt8)}
    (split : SplitsInto input (texts.map encode ++ rest))
    (noText : ∀ line ∈ rest.head?, ∀ text, encode text ≠ line) :
    converse settings input =
      (String.join (texts.map fun text => prompt ++ respond settings text) ++ prompt, 0) := by
  induction texts generalizing input with
  | nil =>
      cases rest with
      | nil =>
          cases split
          exact converse_of_leave rfl
      | cons line others =>
          obtain ⟨-, behind, taken, -⟩ := split.takeLine
          have left : turn settings (takeLine input).1 = .leave 0 := by
            rw [taken]
            exact turn_of_not_text settings (noText line rfl)
          exact converse_of_leave left
  | cons text texts ih =>
      rw [List.map_cons, List.cons_append] at split
      obtain ⟨nonempty, behind, taken, others⟩ := split.takeLine
      have answered : turn settings (takeLine input).1 = .answer (respond settings text) := by
        rw [taken]
        exact turn_encode settings nonempty
      rw [converse_of_answer answered, taken, ih others, List.map_cons, String.join_cons]
      exact congrArg (Prod.mk · 0) String.append_assoc.symm

/-- The lines of an input are texts up to the first line that is no text, if there is one. -/
theorem exists_texts_before (lines : List (List UInt8)) :
    ∃ (texts : List String) (rest : List (List UInt8)), lines = texts.map encode ++ rest ∧
      ∀ line ∈ rest.head?, ∀ text, encode text ≠ line := by
  induction lines with
  | nil => exact ⟨[], [], rfl, by simp⟩
  | cons line lines ih =>
      by_cases isText : ∃ text, encode text = line
      · obtain ⟨text, rfl⟩ := isText
        obtain ⟨texts, rest, rfl, noText⟩ := ih
        exact ⟨text :: texts, rest, rfl, noText⟩
      · refine ⟨[], line :: lines, rfl, fun first isFirst text same => ?_⟩
        obtain rfl : line = first := by simpa using isFirst
        exact isText ⟨text, same⟩

/-- `hold` writes a greeting and what `converse` says, and has its status. -/
theorem hold_of_converse {maxDepth showTokens showForm : Option String} {said : String}
    {status : UInt32}
    (conversed : converse (Settings.ofEnvironment maxDepth showTokens showForm).1 input =
      (said, status)) :
    (hold maxDepth showTokens showForm input).output = greeting ++ said ∧
      (hold maxDepth showTokens showForm input).status = status := by
  simp only [hold, transcript, conversed, and_self]

/-- **The program `hold` answers each line by itself.** The first variable of the environment is the
limit if it names a number of levels, and each of the others shows what it is named for if it is set
at all. Whatever the environment, there is one answer to each line, and for every input the output
is the greeting, for each line before the first that is no text a prompt and its answer, and a last
prompt; the status is zero. Behind a text that is empty or ends with a line feed, any further input
is answered as it is answered alone. -/
theorem output_hold_eq_answers (maxDepth showTokens showForm : Option String) :
    (Settings.ofEnvironment maxDepth showTokens showForm).1 =
      ⟨maxDepth.bind Settings.levels?, showTokens.isSome, showForm.isSome⟩ ∧
    ∃ answer : String → String,
      (∀ line,
        Answers (Settings.ofEnvironment maxDepth showTokens showForm).1 line (answer line)) ∧
      (∀ input, ∃ (texts : List String) (rest : List (List UInt8)),
        SplitsInto input (texts.map encode ++ rest) ∧
        (∀ line ∈ rest.head?, ∀ text, encode text ≠ line) ∧
        (hold maxDepth showTokens showForm input).output =
          greeting ++ (String.join (texts.map fun text => prompt ++ answer text) ++ prompt) ∧
        (hold maxDepth showTokens showForm input).status = 0) ∧
      ∀ (text : String) (further : List UInt8),
        encode text = [] ∨ (encode text).getLast? = some 10 →
        ∃ said more,
          (hold maxDepth showTokens showForm (encode text)).output =
            greeting ++ (said ++ prompt) ∧
          (hold maxDepth showTokens showForm further).output = greeting ++ more ∧
          (hold maxDepth showTokens showForm (encode text ++ further)).output =
            greeting ++ (said ++ more) := by
  let settings := (Settings.ofEnvironment maxDepth showTokens showForm).1
  refine ⟨rfl, respond settings, answers_respond settings, fun input => ?_, ?_⟩
  · obtain ⟨lines, split⟩ := exists_splitsInto input
    obtain ⟨texts, rest, rfl, noText⟩ := exists_texts_before lines
    exact ⟨texts, rest, split, noText, hold_of_converse (converse_eq settings split noText)⟩
  · intro text further closed
    obtain ⟨texts, split⟩ := exists_texts text
    obtain ⟨lines, split'⟩ := exists_splitsInto further
    obtain ⟨texts', rest, rfl, noText⟩ := exists_texts_before lines
    have whole := split.append closed split'
    rw [← List.append_assoc, ← List.map_append] at whole
    rw [← List.append_nil (texts.map encode)] at split
    obtain ⟨first, -⟩ := hold_of_converse (converse_eq settings split (by simp))
    obtain ⟨second, -⟩ := hold_of_converse (converse_eq settings split' noText)
    obtain ⟨both, -⟩ := hold_of_converse (converse_eq settings whole noText)
    rw [List.map_append, String.join_append, String.append_assoc] at both
    exact ⟨_, _, first, second, both⟩

/-- The output for a line and a byte behind it that is no text is put together from the output for
the line and that for the byte. -/
theorem output_hold_eq_answers_undecodable :
    (encode "1\n").getLast? = some 10 ∧ (∀ text, encode text ≠ [255]) ∧
      ∃ said more,
        (hold none none none (encode "1\n")).output = greeting ++ (said ++ prompt) ∧
        (hold none none none [255]).output = greeting ++ more ∧
        (hold none none none (encode "1\n" ++ [255])).output = greeting ++ (said ++ more) := by
  have feed : (encode "1\n").getLast? = some 10 := by decide
  have noText : ∀ text, encode text ≠ [255] := by
    intro text isText
    have decoded := decode_eq_some_iff.2 isText
    have undecoded : decode [255] = none := by decide
    rw [undecoded] at decoded
    cases decoded
  obtain ⟨-, _, -, -, cut⟩ := output_hold_eq_answers none none none
  exact ⟨feed, noText, cut "1\n" [255] (Or.inr feed)⟩

end SmallScheme.Dialogue
