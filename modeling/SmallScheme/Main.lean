import SmallScheme.Dialogue

/-!
# The program

Greets the user, then reads standard input line by line and answers each line until the
input ends or a line is not UTF-8.
-/

namespace SmallScheme.Terminal

/-- Reads bytes up to a line feed or the end of the input. -/
partial def readLine (input : IO.FS.Stream) (line : ByteArray) : IO ByteArray := do
  let byte ← input.read 1
  if byte.isEmpty then return line
  let line := line ++ byte
  if byte[0]? = some 10 then return line else readLine input line

/-- Prompts for lines and answers them, up to the end of the dialogue, which has a status. -/
partial def converse (settings : Settings) (input output : IO.FS.Stream) : IO UInt32 := do
  output.putStr Dialogue.prompt
  output.flush
  let line ← readLine input .empty
  match Dialogue.turn settings line.toList with
  | .leave status => return status
  | .answer text =>
    output.putStr text
    converse settings input output

end SmallScheme.Terminal

open SmallScheme in
/-- Runs the dialogue with the settings of the environment. -/
def main : IO UInt32 := do
  let (settings, warning) := Settings.ofEnvironment (← IO.getEnv "SCHEME_MAX_DEPTH")
    (← IO.getEnv "SCHEME_SHOW_TOKENS") (← IO.getEnv "SCHEME_SHOW_AST")
  (← IO.getStderr).putStr warning
  let output ← IO.getStdout
  output.putStr Dialogue.greeting
  Terminal.converse settings (← IO.getStdin) output
