import Quasiquote.Session
import Quasiquote.Text.Blank

/-!
# The interactive session

A line editor hands out the lines of an input, and each is a source of its own, run in one session.
A blank line is passed over; any other line is answered by its value, by the message of its
rejection, or not at all. The line editor is a parameter.
-/

namespace Quasiquote.Repl

/-- What is printed before the first line is read. -/
def banner : String := "Monkey REPL. Press Ctrl-D to exit."

/-- A line without the carriage return at its end; the line is given from its end. -/
def withoutReturn : List Char → List Char
  | '\r' :: rest => rest
  | line => line

/-- The lines of a text, behind the part of a line that was already read, its latest character
first. A line ends in a line feed, with a carriage return before it or not; what follows the last
line feed is a line only if there is something. -/
def linesBehind (begun : List Char) : List Char → List String
  | [] => if begun.isEmpty then [] else [String.ofList begun.reverse]
  | c :: rest =>
    if c = '\n' then String.ofList (withoutReturn begun).reverse :: linesBehind [] rest
    else linesBehind (c :: begun) rest

def lines (text : String) : List String := linesBehind [] text.toList

/-- How the reading of lines ends. -/
inductive Ending
  /-- At the end of the input, or by an interruption. -/
  | closed
  | failed (cause : String)
  /-- The editor breaks down, and the program with it. -/
  | crashed
  deriving DecidableEq, Repr

/-- What a line editor does with an input: it cannot be started, for some cause, or it hands out
lines and ends. -/
abbrev LineEditor := String → Except String (List String × Ending)

inductive Answer
  | silent
  | value (text : String)
  | rejected (message : String)
  deriving DecidableEq, Repr

def answer (depth : Nat) (line : String) : Eval Answer :=
  if isBlankText line then pure .silent
  else do
    match ← (Session.run depth line).run with
    | .ok (some v) => pure (.value v.text)
    | .ok none => pure .silent
    | .error e => pure (.rejected e.message)

def answers (depth : Nat) : List String → Eval (List Answer)
  | [] => pure []
  | line :: rest => do
    let first ← answer depth line
    let later ← answers depth rest
    pure (first :: later)

def Answer.output : Answer → String
  | .value text => text ++ "\n"
  | _ => ""

def Answer.complaint : Answer → String
  | .rejected message => "\t" ++ message ++ "\n"
  | _ => ""

end Quasiquote.Repl
