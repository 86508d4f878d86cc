import Quasiquote.CommandLine

/-!
# The program

Reads what a command needs, carries it out and prints its output. The interactive session answers
each line as it comes.
-/

namespace Quasiquote

/-- The number of a system error, which some calls give negated. -/
def errorNumber (code : UInt32) : UInt32 := min code (0 - code)

def readBytes (name : String) : IO (Except ReadError (List UInt8)) := do
  try
    return .ok (← IO.FS.readBinFile name).toList
  catch
    | .noFileOrDirectory _ _ _ => return .error .missing
    | e@(.inappropriateType _ code _) | e@(.invalidArgument _ code _) =>
      match errorNumber code with
      | 20 => return .error .notDirectory
      | 21 => return .error .isDirectory
      | 36 => return .error .nameTooLong
      | _ => throw e
    | e => throw e

/-- Answers lines of standard input until it ends. -/
def interact : IO UInt32 := do
  let stdin ← IO.getStdin
  let stdout ← IO.getStdout
  stdout.putStrLn Repl.banner
  let mut store := Store.initial
  repeat
    stdout.flush
    let chunk ← stdin.getLine
    if chunk.isEmpty then return 0
    let (lines, ending) := CommandLine.typedLines (Repl.lines chunk)
    let some (answers, next) := Repl.answers Session.ample lines store | return 1
    store := next
    for answer in answers do
      IO.print answer.output
      IO.eprint answer.complaint
    if ending = .crashed then return 101
  return 0

end Quasiquote

open Quasiquote in
/-- Runs the command line. -/
def main (args : List String) : IO UInt32 := do
  match CommandLine.Command.ofArgs args with
  | some .repl => interact
  | command =>
    let output ← match command with
      | some (.withFile action (some name)) => do
        let bytes ← readBytes name
        pure ((CommandLine.Command.withFile action name).execute Session.ample (fun _ => bytes) "")
      | some other => pure (other.execute Session.ample (fun _ => .error .missing) "")
      | none => pure (some CommandLine.misused)
    match output with
    | some o =>
      IO.print o.stdout
      IO.eprint o.stderr
      return o.status.toUInt32
    | none => return 1
