import Quasiquote.Command
import Quasiquote.Text.Erasing

/-!
# The command line

Commands with the line editor that the program is built with.
-/

namespace Quasiquote.CommandLine

/-- The lines with their backspaces carried out, up to one in which that cannot be done. -/
def typedLines : List String → List String × Repl.Ending
  | [] => ([], .closed)
  | line :: rest =>
    match Erasing.typed line with
    | none => ([], .crashed)
    | some text =>
      let (texts, ending) := typedLines rest
      (text :: texts, ending)

/-- Hands out the lines of the input as they look once they are typed, to its end. -/
def builtIn : Repl.LineEditor := fun input => .ok (typedLines (Repl.lines input))

def Command.execute (depth : Nat) (files : String → Except ReadError (List UInt8))
    (input : String) (command : Command) : Option Output :=
  command.carryOut builtIn depth files input

end Quasiquote.CommandLine
