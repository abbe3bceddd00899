import SmallScheme.Outcome

/-!
# The dialogue at a terminal

A user types lines and gets an answer to each. Every line is a source of its own: nothing is
kept from one to the next. The dialogue ends with the input, or before a line that is not
UTF-8.

Three settings come from the environment: a limit on nesting, and whether the tokens and the
form of each line are shown.

## Main definitions

* `Settings.ofEnvironment`: the settings, and a warning about a limit that is no number.
* `Dialogue.respond`: the answer to one line.
* `Dialogue.turn`: what comes of one line that was read, a further round or the end.
* `Dialogue.hold`: all that is written for a given environment and input, and the status.
-/

namespace SmallScheme

/-- What the environment asks for. -/
structure Settings where
  limit : Limit
  showTokens : Bool
  showForm : Bool
deriving DecidableEq

namespace Settings

/-- The number of levels that a text names: decimal digits, with a plus sign before them or
without, for a number of at most 64 bits. -/
def levels? (text : String) : Option Nat :=
  let digits :=
    match text.toList with
    | '+' :: digits => digits
    | digits => digits
  let levels := Nat.ofDigitChars 10 digits 0
  if digits ≠ [] ∧ digits.all Char.isDigit ∧ levels < UInt64.size then some levels else none

/-- The settings that the values of three variables ask for, and a warning where the first
is no number of levels. The other two count as set whatever their value is. A variable whose
value is not Unicode counts as not set. -/
def ofEnvironment (maxDepth showTokens showForm : Option String) : Settings × String :=
  let limit := maxDepth.bind levels?
  let warning :=
    match maxDepth, limit with
    | some text, none =>
      "ignoring SCHEME_MAX_DEPTH=" ++ Text.quoted text ++ ": not a number\n"
    | _, _ => ""
  (⟨limit, showTokens.isSome, showForm.isSome⟩, warning)

end Settings

namespace Dialogue

/-- What is said before the first line. -/
def greeting : String :=
  "Hello! This is a small Scheme evaluator.\nFeel free to type in expressions\n"

/-- What is said before each line. -/
def prompt : String :=
  ">> "

/-- The tokens of a line, one on a line of output. -/
def tokenList (tokens : List Token) : String :=
  String.join (tokens.map fun token => "\t" ++ token.text ++ "\n")

/-- The result of a line. -/
def resultLine : Except EvalError Value → String
  | .ok value => value.text ++ "\n"
  | .error error => "ERROR: " ++ error.message ++ "\n"

/-- The answer to one line. -/
def respond (settings : Settings) (line : String) : String :=
  let outcome := run settings.limit line
  let tokens := if settings.showTokens then tokenList outcome.tokens else ""
  let answer :=
    match outcome.form with
    | .error error => "\t" ++ error.message ++ "\n"
    | .ok none => ""
    | .ok (some form) =>
      (if settings.showForm then "AST: " ++ form.text ++ "\n" else "") ++
        (outcome.result.map resultLine).getD ""
  tokens ++ answer

/-- The next line of an input, with its line feed, and what is behind it. The last line may lack
the line feed, and is empty where the input has ended. -/
def takeLine : List UInt8 → List UInt8 × List UInt8
  | [] => ([], [])
  | byte :: bytes =>
    if byte = 10 then ([byte], bytes)
    else
      let (line, rest) := takeLine bytes
      (byte :: line, rest)

/-- `takeLine` divides an input into the line that it takes and the rest. -/
theorem takeLine_append (input : List UInt8) :
    (takeLine input).1 ++ (takeLine input).2 = input := by
  induction input with
  | nil => rfl
  | cons byte bytes ih =>
      rw [takeLine]
      split
      · rfl
      · rw [List.cons_append, ih]

/-- The text of a line, if it is UTF-8. -/
def decode (line : List UInt8) : Option String :=
  String.fromUTF8? ⟨line.toArray⟩

/-- What comes of a line: an answer, or the end of the dialogue with a status. -/
inductive Turn where
  | answer (text : String)
  | leave (status : UInt32)

/-- What comes of the line that was taken from the input. -/
def turn (settings : Settings) (line : List UInt8) : Turn :=
  if line.isEmpty then .leave 0
  else
    match decode line with
    | some text => .answer (respond settings text)
    | none => .leave 0

/-- `turn` does not answer the empty line, which stands for the end of the input. -/
theorem ne_nil_of_turn_eq_answer {settings : Settings} {line : List UInt8} {text : String}
    (h : turn settings line = .answer text) : line ≠ [] := by
  rintro rfl
  cases h

/-- Behind a line that `turn` answers, less of the input is left. -/
theorem length_lt_of_turn_eq_answer {settings : Settings} {input : List UInt8} {text : String}
    (h : turn settings (takeLine input).1 = .answer text) :
    (takeLine input).2.length < input.length := by
  have divided := congrArg List.length (takeLine_append input)
  have taken := List.length_pos_iff.2 (ne_nil_of_turn_eq_answer h)
  rw [List.length_append] at divided
  omega

/-- Prompts and answers for an input, and the status at the end. -/
def converse (settings : Settings) (input : List UInt8) : String × UInt32 :=
  match h : turn settings (takeLine input).1 with
  | .leave status => (prompt, status)
  | .answer text =>
    have := length_lt_of_turn_eq_answer h
    let (more, status) := converse settings (takeLine input).2
    (prompt ++ text ++ more, status)
termination_by input.length

/-- All that is written to standard output for an input. -/
def transcript (settings : Settings) (input : List UInt8) : String :=
  greeting ++ (converse settings input).1

/-- What the program leaves behind: what it wrote to standard output and to standard error, and
its status. -/
structure Record where
  output : String
  warning : String
  status : UInt32

/-- The program as a whole: the values of three variables and an input make a record. -/
def hold (maxDepth showTokens showForm : Option String) (input : List UInt8) : Record :=
  let (settings, warning) := Settings.ofEnvironment maxDepth showTokens showForm
  ⟨transcript settings input, warning, (converse settings input).2⟩

end Dialogue

end SmallScheme
