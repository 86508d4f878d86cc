import Quasiquote.Repl
import Quasiquote.Syntax.Json
import Quasiquote.Text.Quoted
import Quasiquote.Text.Utf8

/-!
# Commands

A command reads one file and shows its tokens, its program, its program with macros expanded, or the
value that the program gives; or it is the interactive session. What a command does is an `Output`:
an exit status and what it prints.

* Status 65 is a file that was rejected, 70 a program that ended in a fault, 1 a file or a line that
  could not be read, 2 arguments that make no command, and 101 a session whose line editor broke
  down.
* Words that begin with a hyphen are options, up to `--`; behind it every word is a file name.
* `--log` may stand before a command and behind it, once in each place, and shows nothing.
-/

namespace Quasiquote

/-- Why a file could not be read as text. -/
inductive ReadError
  /-- There is no such file. -/
  | missing
  /-- The name is that of a directory. -/
  | isDirectory
  /-- The name leads through a file as if it were a directory. -/
  | notDirectory
  | nameTooLong
  | malformed (error : Utf8.Malformed)
  deriving DecidableEq, Repr

def ReadError.message : ReadError → String
  | .missing => "No such file or directory (os error 2)"
  | .isDirectory => "Is a directory (os error 21)"
  | .notDirectory => "Not a directory (os error 20)"
  | .nameTooLong => "File name too long (os error 36)"
  | .malformed e => e.message

/-- The text of a file, given its bytes or the error in reading them. -/
def decodeFile (file : Except ReadError (List UInt8)) : Except ReadError String := do
  (Utf8.decode (← file)).mapError .malformed

namespace CommandLine

inductive Action
  | tokenize
  | parse (json : Bool)
  | expand
  | run
  deriving DecidableEq, Repr

inductive Command
  | withFile (action : Action) (file : Option String)
  | repl
  | version
  deriving DecidableEq, Repr

inductive Verb
  | tokenize
  | parse
  | expand
  | run
  | repl
  deriving DecidableEq, Repr

def Verb.ofWord? (word : String) : Option Verb :=
  if word = "tokenize" then some .tokenize
  else if word = "parse" then some .parse
  else if word = "expand" then some .expand
  else if word = "run" then some .run
  else if word = "repl" then some .repl
  else none

/-- What the words behind a verb have said. -/
structure Choices where
  log : Bool := false
  json : Bool := false
  file : Option String := none
  deriving DecidableEq, Repr

/-- Whether a word is an option; a single hyphen is none. -/
def isOption (word : String) : Bool := word.toList.head? = some '-' && word != "-"

/-- Takes an option. No option is given twice. -/
def Verb.option (verb : Verb) (choices : Choices) (word : String) : Option Choices :=
  if word = "--log" ∧ ¬choices.log then some { choices with log := true }
  else if word = "--json" ∧ verb = .parse ∧ ¬choices.json then some { choices with json := true }
  else none

/-- Takes a file name. There is at most one, and it is not empty. -/
def Verb.operand (verb : Verb) (choices : Choices) (word : String) : Option Choices :=
  if verb = .repl ∨ choices.file.isSome ∨ word.isEmpty then none
  else some { choices with file := some word }

def Verb.take (verb : Verb) (choices : Choices) : List String → Option Choices
  | [] => some choices
  | word :: rest =>
    if word = "--" then rest.foldlM verb.operand choices
    else do
      verb.take
        (← if isOption word then verb.option choices word else verb.operand choices word) rest

def Verb.command (choices : Choices) : Verb → Command
  | .tokenize => .withFile .tokenize choices.file
  | .parse => .withFile (.parse choices.json) choices.file
  | .expand => .withFile .expand choices.file
  | .run => .withFile .run choices.file
  | .repl => .repl

/-- Whether a word asks for the version: in full, or by a letter with others behind it or not. -/
def asksVersion (word : String) : Bool := word = "--version" || "-V".toList.isPrefixOf word.toList

/-- The command that arguments ask for, if they do not begin with the option for a log. -/
def commandOf : List String → Option Command
  | [] => some .repl
  | word :: rest =>
    if word = "--" ∧ rest.isEmpty then some .repl
    else if asksVersion word then some .version
    else do
      let verb ← Verb.ofWord? word
      some (verb.command (← verb.take {} rest))

def Command.ofArgs : List String → Option Command
  | "--log" :: rest => commandOf rest
  | args => commandOf args

structure Output where
  status : Nat
  stdout : String
  stderr : String
  deriving DecidableEq, Repr

/-- Texts, each on a line of its own. -/
def asLines (texts : List String) : String := String.join (texts.map (· ++ "\n"))

/-- Success, with lines on standard output. -/
def shown (texts : List String) : Output := ⟨0, asLines texts, ""⟩

/-- Failure, with one line on standard error. -/
def refused (status : Nat) (message : String) : Output := ⟨status, "", asLines [message]⟩

/-- The tokens of a source, and beside them its lexical errors. -/
def tokenListing (source : String) : Output :=
  let items := (Source.ofString source).items
  let tokens := items.filterMap fun
    | .ok t => some t.text
    | .error _ => none
  let errors := items.filterMap fun
    | .ok _ => none
    | .error e => some e.message
  ⟨if errors.isEmpty then 0 else 65, asLines tokens, asLines errors⟩

def programListing (json : Bool) (source : String) : Output :=
  match Program.ofSource source with
  | .ok program => shown (if json then [program.json.text] else program.map Stmt.text)
  | .error e => refused 65 e.message

def expansionListing (depth : Nat) (source : String) : Option Output :=
  match Program.ofSource source with
  | .error e => some (refused 65 e.message)
  | .ok program => do
    match ← (Session.prepare depth Session.globals program).run Store.initial with
    | (.ok expanded, _) => some (shown (expanded.map Stmt.text))
    | (.error e, _) => some (refused 65 (Rejection.expansion e).message)

def outcome (depth : Nat) (source : String) : Option Output := do
  match ← (Session.run depth source).run Store.initial with
  | (.ok (some v), _) => some (if v.isFault then refused 70 v.text else shown [v.text])
  | (.ok none, _) => some (shown [])
  | (.error e, _) => some (refused 65 e.message)

def Action.perform (depth : Nat) (source : String) : Action → Option Output
  | .tokenize => some (tokenListing source)
  | .parse json => some (programListing json source)
  | .expand => expansionListing depth source
  | .run => outcome depth source

def causedBy (failure cause : String) : String :=
  "Error: " ++ failure ++ "\n\nCaused by:\n    " ++ cause

/-- The interactive session on a whole input. -/
def transcript (editor : Repl.LineEditor) (depth : Nat) (input : String) : Option Output :=
  match editor input with
  | .error cause => some (refused 1 (causedBy "Failed to initialise line editor" cause))
  | .ok (lines, ending) => do
    let (answers, _) ← Repl.answers depth lines Store.initial
    let stdout := asLines [Repl.banner] ++ String.join (answers.map Repl.Answer.output)
    let stderr := String.join (answers.map Repl.Answer.complaint)
    match ending with
    | .closed => some ⟨0, stdout, stderr⟩
    | .failed cause => some ⟨1, stdout, stderr ++ asLines [causedBy "Failed to read line" cause]⟩
    | .crashed => some ⟨101, stdout, stderr⟩

def unreadable (name : String) (e : ReadError) : Output :=
  refused 1 (causedBy ("Failed to read file " ++ quotedName name) e.message)

/-- Carries out a command, given the line editor, the files and the standard input. -/
def Command.carryOut (editor : Repl.LineEditor) (depth : Nat)
    (files : String → Except ReadError (List UInt8)) (input : String) : Command → Option Output
  | .version => some (shown ["monkey-interpreter 0.1.0"])
  | .repl => transcript editor depth input
  | .withFile _ none => some (shown ["No input filepath was provided. Exiting..."])
  | .withFile action (some name) =>
    match decodeFile (files name) with
    | .ok source => action.perform depth source
    | .error e => some (unreadable name e)

def misused : Output :=
  refused 2 "Usage: monkey [--log] [tokenize | parse [--json] | expand | run | repl] [FILE]"

end CommandLine

end Quasiquote
